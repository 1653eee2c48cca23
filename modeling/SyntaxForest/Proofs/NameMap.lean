import SyntaxForest.NameMap

/-! A map is known by its look-ups: setting a key changes what that key is looked up as
and nothing else, and maps from names with the same look-ups are equal. -/

namespace SyntaxForest.NameMap
variable {α : Type}

/-! ## Look-ups in lists of entries -/

section
variable {κ : Type} [BEq κ] [LawfulBEq κ] {entries : List (κ × α)} {name : κ}

/-- The first entry is found under its own key, and the others under theirs. -/
theorem lookup_cons [DecidableEq κ] (name : κ) (entry : κ × α) (entries : List (κ × α)) :
    (entry :: entries).lookup name =
      if name = entry.1 then some entry.2 else entries.lookup name := by
  rw [List.lookup_cons]
  by_cases h : name = entry.1
  · simp [h]
  · simp [h, beq_eq_false_iff_ne.mpr h]

/-- Only keys that are there are found. -/
theorem lookup_eq_none_of_notMem (h : name ∉ entries.map Prod.fst) :
    entries.lookup name = none := by
  rw [List.lookup_eq_none_iff]
  intro entry hentry
  rw [bne_iff_ne]
  rintro rfl
  exact h (List.mem_map_of_mem hentry)

/-- Where no key stands twice, looking up finds exactly the entries. -/
theorem lookup_eq_some_iff_mem [DecidableEq κ] (h : (entries.map Prod.fst).Nodup) {value : α} :
    entries.lookup name = some value ↔ (name, value) ∈ entries := by
  induction entries with
  | nil => simp
  | cons entry entries ih =>
    obtain ⟨hentry, hrest⟩ := List.nodup_cons.mp h
    rw [lookup_cons, List.mem_cons, ← ih hrest]
    by_cases hname : name = entry.1
    · subst hname
      simp [lookup_eq_none_of_notMem hentry, Prod.ext_iff, eq_comm]
    · simp [hname, Prod.ext_iff]

/-- A key that is set is found with its new value, and any other as before. -/
theorem lookup_setEntry [DecidableEq κ] (key other : κ) (value : α) (entries : List (κ × α)) :
    (setEntry key value entries).lookup other =
      if other = key then some value else entries.lookup other := by
  induction entries with
  | nil => rw [setEntry, lookup_cons]
  | cons entry entries ih =>
    rw [setEntry]
    by_cases hkey : entry.1 = key
    · rw [if_pos hkey, lookup_cons, lookup_cons, hkey]
      split <;> rfl
    · rw [if_neg hkey, lookup_cons, lookup_cons, ih]
      by_cases hother : other = entry.1
      · have hne : other ≠ key := fun heq => hkey (hother.symm.trans heq)
        rw [if_pos hother, if_neg hne, if_pos hother]
      · rw [if_neg hother, if_neg hother]

end

section
variable {κ : Type} [DecidableEq κ]

/-- Keys keep their order, and a new key comes last. -/
theorem map_fst_setEntry (key : κ) (value : α) (entries : List (κ × α)) :
    (setEntry key value entries).map Prod.fst =
      if key ∈ entries.map Prod.fst then entries.map Prod.fst
      else entries.map Prod.fst ++ [key] := by
  induction entries with
  | nil => rfl
  | cons entry entries ih =>
    rw [setEntry]
    by_cases hkey : entry.1 = key
    · simp [hkey]
    · rw [if_neg hkey, List.map_cons, ih, List.map_cons]
      by_cases hmem : key ∈ entries.map Prod.fst
      · rw [if_pos hmem, if_pos (List.mem_cons_of_mem _ hmem)]
      · have hnot : key ∉ entry.1 :: entries.map Prod.fst := by
          simp only [List.mem_cons, not_or]
          exact ⟨Ne.symm hkey, hmem⟩
        rw [if_neg hmem, if_neg hnot, List.cons_append]

theorem setEntry_of_notMem {key : κ} {entries : List (κ × α)} (h : key ∉ entries.map Prod.fst)
    (value : α) : setEntry key value entries = entries ++ [(key, value)] := by
  induction entries with
  | nil => rfl
  | cons entry entries ih =>
    rw [List.map_cons, List.mem_cons, not_or] at h
    rw [setEntry, if_neg (Ne.symm h.1), ih h.2, List.cons_append]

end

/-! ## Look-ups in maps from names -/

theorem lookup_insertEntry (name other : String) (value : α) (entries : List (String × α)) :
    (insertEntry name value entries).lookup other =
      if other = name then some value else entries.lookup other := by
  induction entries with
  | nil => rw [insertEntry, lookup_cons]
  | cons entry entries ih =>
    rw [insertEntry]
    split
    · rw [lookup_cons]
    · split
      case isTrue heq =>
        rw [lookup_cons, lookup_cons, ← heq]
        split <;> rfl
      case isFalse hne =>
        rw [lookup_cons, lookup_cons, ih]
        by_cases h : other = entry.1
        · have hother : other ≠ name := fun heq => hne (heq ▸ h)
          rw [if_pos h, if_neg hother, if_pos h]
        · rw [if_neg h, if_neg h]

theorem nodup_names (m : NameMap α) : (m.entries.map Prod.fst).Nodup := by
  refine List.pairwise_map.mpr (m.sorted.imp fun {a b} hlt heq => ?_)
  rw [heq] at hlt
  exact String.lt_irrefl _ hlt

theorem mem_entries_iff {m : NameMap α} {name : String} {value : α} :
    (name, value) ∈ m.entries ↔ m.get? name = some value :=
  (lookup_eq_some_iff_mem m.nodup_names).symm

/-- Maps with the same look-ups are equal, since the order of the entries is fixed. -/
theorem ext_get? {m n : NameMap α} (h : ∀ name, m.get? name = n.get? name) : m = n := by
  have hnodup (m : NameMap α) : m.entries.Nodup :=
    List.Pairwise.of_map Prod.fst (fun a b hne heq => hne (heq ▸ rfl)) m.nodup_names
  have hperm : m.entries.Perm n.entries := by
    rw [List.perm_ext_iff_of_nodup (hnodup m) (hnodup n)]
    intro entry
    rw [mem_entries_iff, mem_entries_iff, h]
  refine ext (hperm.eq_of_pairwise (fun a b _ _ hab hba => ?_) m.sorted n.sorted)
  exact absurd hba (String.lt_asymm hab)

/-- Setting a name changes the look-up of that name alone. -/
theorem get?_insert (m : NameMap α) (name other : String) (value : α) :
    (m.insert name value).get? other = if other = name then some value else m.get? other :=
  lookup_insertEntry name other value m.entries

/-- Entries with names of their own come in front of what a map has. -/
theorem get?_foldl_insert {entries : List (String × α)}
    (h : (entries.map Prod.fst).Nodup) (m : NameMap α) (name : String) :
    (entries.foldl (fun m entry => m.insert entry.1 entry.2) m).get? name =
      (entries.lookup name).or (m.get? name) := by
  induction entries generalizing m with
  | nil => rfl
  | cons entry entries ih =>
    obtain ⟨hentry, hrest⟩ := List.nodup_cons.mp h
    rw [List.foldl_cons, ih hrest, get?_insert, lookup_cons]
    by_cases hname : name = entry.1
    · subst hname
      simp [lookup_eq_none_of_notMem hentry]
    · simp [hname]

end SyntaxForest.NameMap
