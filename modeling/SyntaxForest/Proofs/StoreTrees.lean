import Mathlib.Data.List.Induction
import SyntaxForest.Discovery
import SyntaxForest.Proofs.PathOrder
import SyntaxForest.Proofs.StoreWrites

/-! Stores that are trees of directories.  Every entry has a location of its own and
stands in a directory.  A path that leads to a directory, through however many links,
leads on through the names below it, since what stands on the way there are directories
and no links. -/

namespace SyntaxForest

namespace FileStore

variable {store : FileStore} {location : Location} {names : List String}

/-- The store is a tree of directories: locations are distinct and made of names that a
file can have, and above every entry stands a directory. -/
structure IsTree (store : FileStore) : Prop where
  locations_nodup : (store.entries.map Prod.fst).Nodup
  isName : ∀ entry ∈ store.entries, ∀ name ∈ entry.1, Path.IsName name
  fits : ∀ entry ∈ store.entries, ∀ name ∈ entry.1,
    name.utf8ByteSize ≤ nameLimit ∧ '\x00' ∉ name.toList
  isBelow : ∀ entry ∈ store.entries, entry.1 ≠ [] ∧ store.HasDirectory entry.1.dropLast

instance decidableHasDirectory (store : FileStore) (location : Location) :
    Decidable (store.HasDirectory location) :=
  match h : store.get? location with
  | some (.directory isWritable) => isTrue ⟨isWritable, h⟩
  | some (.file _) => isFalse fun ⟨_, hdirectory⟩ => by rw [h] at hdirectory; cases hdirectory
  | some (.link _) => isFalse fun ⟨_, hdirectory⟩ => by rw [h] at hdirectory; cases hdirectory
  | none => isFalse fun ⟨_, hdirectory⟩ => by rw [h] at hdirectory; cases hdirectory

instance decidableIsTree (store : FileStore) : Decidable store.IsTree :=
  decidable_of_iff
    ((store.entries.map Prod.fst).Nodup ∧
      (∀ entry ∈ store.entries, ∀ name ∈ entry.1, Path.IsName name) ∧
      (∀ entry ∈ store.entries, ∀ name ∈ entry.1,
        name.utf8ByteSize ≤ nameLimit ∧ '\x00' ∉ name.toList) ∧
      ∀ entry ∈ store.entries, entry.1 ≠ [] ∧ store.HasDirectory entry.1.dropLast)
    ⟨fun ⟨hnodup, hnames, hfits, hbelow⟩ => ⟨hnodup, hnames, hfits, hbelow⟩,
      fun h => ⟨h.locations_nodup, h.isName, h.fits, h.isBelow⟩⟩

namespace IsTree

theorem get?_eq_some_iff (h : store.IsTree) (hne : location ≠ []) {entry : Entry} :
    store.get? location = some entry ↔ (location, entry) ∈ store.entries := by
  rw [get?, if_neg hne, NameMap.lookup_eq_some_iff_mem h.locations_nodup]

/-- What stands somewhere stands under names. -/
theorem isName_of_get? (h : store.IsTree) {entry : Entry}
    (hget : store.get? location = some entry) {name : String} (hname : name ∈ location) :
    Path.IsName name := by
  have hmem := (h.get?_eq_some_iff (List.ne_nil_of_mem hname)).mp hget
  exact h.isName _ hmem name hname

/-- Above everything that stands somewhere are directories. -/
theorem hasDirectory_of_get? (h : store.IsTree) {entry : Entry} (hne : names ≠ [])
    (hget : store.get? (location ++ names) = some entry) : store.HasDirectory location := by
  induction names using List.reverseRecOn generalizing entry with
  | nil => exact absurd rfl hne
  | append_singleton before name ih =>
    have hmem := (h.get?_eq_some_iff (by simp)).mp hget
    obtain ⟨-, isWritable, habove⟩ := h.isBelow _ hmem
    rw [← List.append_assoc, List.dropLast_concat] at habove
    by_cases hbefore : before = []
    · rw [hbefore, List.append_nil] at habove
      exact ⟨isWritable, habove⟩
    · exact ih hbefore habove

end IsTree

/-! ## Going on from a directory -/

section follow

variable {onLink : Location → List String → Except SystemError Location}
variable {place target : Location} {piece : String} {rest pieces more : List String}

/-- A name that is looked at is the last of the pieces, or leads into a directory, or to
a link. -/
theorem follow_look_name_eq_ok_iff (hstep : Path.isStep piece = true) (hup : piece ≠ "..") :
    store.follow .look onLink place (piece :: rest) = .ok location ↔
      piece.utf8ByteSize ≤ nameLimit ∧
        ((store.get? (place ++ [piece]) = none ∨
            ∃ id, store.get? (place ++ [piece]) = some (.file id)) ∧
              rest = [] ∧ place ++ [piece] = location ∨
          store.HasDirectory (place ++ [piece]) ∧
            store.follow .look onLink (place ++ [piece]) rest = .ok location ∨
          ∃ target, store.get? (place ++ [piece]) = some (.link target) ∧
            onLink (if target.isAbsolute then [] else place) (target.pieces ++ rest) =
              .ok location) := by
  rw [follow_name hstep hup, if_neg (by simp)]
  by_cases hsize : nameLimit < piece.utf8ByteSize
  · simp [hsize, Nat.not_le_of_lt hsize]
  · rw [if_neg hsize, and_iff_right (Nat.le_of_not_lt hsize), HasDirectory]
    cases hget : store.get? (place ++ [piece]) with
    | none => by_cases hrest : rest = [] <;> simp [hrest]
    | some entry =>
      cases entry with
      | file id => by_cases hrest : rest = [] <;> simp [hrest]
      | directory isWritable => simp
      | link target => simp

/-- Pieces that lead to a directory lead on from there. -/
theorem follow_append (hdirectory : store.HasDirectory location)
    (hlink : ∀ place pieces, onLink place pieces = .ok location →
      onLink place (pieces ++ more) = .ok target)
    (hmore : store.follow .look onLink location more = .ok target)
    (h : store.follow .look onLink place pieces = .ok location) :
    store.follow .look onLink place (pieces ++ more) = .ok target := by
  induction pieces generalizing place with
  | nil =>
    obtain rfl := Except.ok.inj h
    exact hmore
  | cons piece rest ih =>
    rw [List.cons_append]
    by_cases hstep : Path.isStep piece = true
    · by_cases hup : piece = ".."
      · rw [hup, follow_up] at h ⊢
        exact ih h
      · rw [follow_look_name_eq_ok_iff hstep hup] at h ⊢
        obtain ⟨hsize, ⟨hleaf, -, rfl⟩ | ⟨hnext, hrest⟩ | ⟨link, hget, honLink⟩⟩ := h
        · -- a directory stands there, and neither nothing nor a file
          obtain ⟨isWritable, hget⟩ := hdirectory
          simp [hget] at hleaf
        · exact ⟨hsize, .inr (.inl ⟨hnext, ih hrest⟩)⟩
        · refine ⟨hsize, .inr (.inr ⟨link, hget, ?_⟩)⟩
          rw [← List.append_assoc]
          exact hlink _ _ honLink
    · rw [Bool.not_eq_true] at hstep
      rw [follow_skip hstep] at h ⊢
      exact ih h

theorem followLinks_append (hdirectory : store.HasDirectory location)
    (hmore : ∀ onLink, store.follow .look onLink location more = .ok target) {links : Nat}
    (h : store.followLinks .look links place pieces = .ok location) :
    store.followLinks .look links place (pieces ++ more) = .ok target := by
  induction links generalizing place pieces with
  | zero => exact follow_append hdirectory (fun _ _ hlink => by cases hlink) (hmore _) h
  | succ links ih => exact follow_append hdirectory (fun _ _ => ih) (hmore _) h

/-- A slash at the end only asks for a directory. -/
theorem follow_of_append_empty
    (hlink : ∀ place pieces, onLink place (pieces ++ [""]) = .ok location →
      onLink place pieces = .ok location)
    (h : store.follow .look onLink place (pieces ++ [""]) = .ok location) :
    store.follow .look onLink place pieces = .ok location := by
  induction pieces generalizing place with
  | nil =>
    rw [List.nil_append, follow_skip (by decide)] at h
    exact h
  | cons piece rest ih =>
    rw [List.cons_append] at h
    by_cases hstep : Path.isStep piece = true
    · by_cases hup : piece = ".."
      · rw [hup, follow_up] at h ⊢
        exact ih h
      · rw [follow_look_name_eq_ok_iff hstep hup] at h ⊢
        obtain ⟨hsize, ⟨-, hempty, -⟩ | ⟨hnext, hrest⟩ | ⟨link, hget, honLink⟩⟩ := h
        · exact absurd hempty (List.concat_ne_nil "" rest)
        · exact ⟨hsize, .inr (.inl ⟨hnext, ih hrest⟩)⟩
        · rw [← List.append_assoc] at honLink
          exact ⟨hsize, .inr (.inr ⟨link, hget, hlink _ _ honLink⟩)⟩
    · rw [Bool.not_eq_true] at hstep
      rw [follow_skip hstep] at h ⊢
      exact ih h

theorem followLinks_of_append_empty {links : Nat}
    (h : store.followLinks .look links place (pieces ++ [""]) = .ok location) :
    store.followLinks .look links place pieces = .ok location := by
  induction links generalizing place pieces with
  | zero => exact follow_of_append_empty (fun _ _ hlink => by cases hlink) h
  | succ links ih => exact follow_of_append_empty (fun _ _ => ih) h

/-- Names lead down a tree to the file below. -/
theorem IsTree.follow_names (h : store.IsTree) {id : Nat}
    (hget : store.get? (location ++ names) = some (.file id)) :
    store.follow .look onLink location names = .ok (location ++ names) := by
  induction names generalizing location with
  | nil => rw [follow, List.append_nil]
  | cons name rest ih =>
    have hmem := (h.get?_eq_some_iff (by simp)).mp hget
    have hname : Path.IsName name := h.isName_of_get? hget (by simp)
    rw [List.append_cons] at hget ⊢
    rw [follow_look_name_eq_ok_iff hname.isStep hname.ne_up]
    refine ⟨(h.fits _ hmem name (by simp)).1, ?_⟩
    by_cases hrest : rest = []
    · rw [hrest, List.append_nil] at hget ⊢
      exact .inl ⟨.inr ⟨id, hget⟩, rfl, rfl⟩
    · exact .inr (.inl ⟨h.hasDirectory_of_get? hrest hget, ih hget⟩)

end follow

end FileStore

/-! ## Paths below a directory -/

namespace Discovery

variable {directory : Path} {names : List String}

theorem below_concat (directory : Path) (names : List String) (name : String) :
    below directory (names ++ [name]) = (below directory names).join name := by
  rw [below, List.foldl_concat, ← below]

/-- **Names below a directory are its components and then themselves.** -/
theorem components_below (h : ∀ name ∈ names, Path.IsName name) (directory : Path) :
    (below directory names).components = directory.components ++ names.map .name := by
  induction names using List.reverseRecOn with
  | nil => exact (List.append_nil _).symm
  | append_singleton before name ih =>
    obtain ⟨hbefore, hname⟩ := List.forall_mem_append.mp h
    rw [below_concat, Path.components_join (hname name List.mem_cons_self), ih hbefore,
      List.append_assoc, List.map_append, List.map_singleton]

theorem below_injective {others : List String} (h : ∀ name ∈ names, Path.IsName name)
    (h' : ∀ name ∈ others, Path.IsName name)
    (heq : (below directory names).components = (below directory others).components) :
    names = others := by
  rw [components_below h, components_below h', List.append_cancel_left_eq] at heq
  exact List.map_injective_iff.mpr (fun _ _ => Path.Component.name.inj) heq

theorem fileName?_below {name : String} (h : Path.IsName name) (directory : Path)
    (names : List String) : (below directory (names ++ [name])).fileName? = some name := by
  rw [below_concat, Path.fileName?, Path.components_join h, List.getLast?_concat]

/-- The pieces of a path below a directory end with the names. -/
theorem pieces_below (h : ∀ name ∈ names, Path.IsName name) (hne : names ≠ []) (directory : Path) :
    ∃ above, (below directory names).pieces = above ++ names ∧
      (directory.pieces = above ∨ directory.pieces = above ++ [""]) := by
  induction names using List.reverseRecOn with
  | nil => exact absurd rfl hne
  | append_singleton before name ih =>
    obtain ⟨hbefore, hname⟩ := List.forall_mem_append.mp h
    rw [below_concat]
    obtain ⟨inner, hjoin, hinner⟩ :=
      Path.pieces_join (hname name List.mem_cons_self) (below directory before)
    by_cases hnil : before = []
    · rw [hnil] at hinner hjoin ⊢
      exact ⟨inner, hjoin, hinner⟩
    · obtain ⟨above, hpieces, habove⟩ := ih hbefore hnil
      refine ⟨above, ?_, habove⟩
      -- the path before does not end with a slash, since it ends with a name
      rcases hinner with hinner | hinner
      · rw [hjoin, ← hinner, hpieces, List.append_assoc]
      · obtain ⟨early, last, rfl⟩ := (List.eq_nil_or_concat before).resolve_left hnil
        rw [hpieces, List.concat_eq_append, ← List.append_assoc] at hinner
        have hlast : last = "" := List.singleton_inj.mp (List.append_inj_right' hinner rfl)
        have hstep := (hbefore last (by simp)).isStep
        rw [hlast] at hstep
        cases hstep

theorem isAbsolute_below (h : ∀ name ∈ names, Path.IsName name) (directory : Path) :
    (below directory names).isAbsolute = directory.isAbsolute := by
  induction names using List.reverseRecOn with
  | nil => rfl
  | append_singleton before name ih =>
    obtain ⟨hbefore, hname⟩ := List.forall_mem_append.mp h
    rw [below_concat, Path.isAbsolute_join (hname name List.mem_cons_self), ih hbefore]

/-- A path below a directory has no character but slashes and those of the directory
and the names. -/
theorem mem_text_below (h : ∀ name ∈ names, Path.IsName name) {c : Char}
    (hc : c ∈ (below directory names).text.toList) :
    c ∈ directory.text.toList ∨ c = '/' ∨ ∃ name ∈ names, c ∈ name.toList := by
  induction names using List.reverseRecOn with
  | nil => exact .inl hc
  | append_singleton before name ih =>
    obtain ⟨hbefore, hname⟩ := List.forall_mem_append.mp h
    have hlast : c ∈ name.toList → ∃ each ∈ before ++ [name], c ∈ each.toList :=
      fun hmem => ⟨name, by simp, hmem⟩
    have hearly (hmem : c ∈ (below directory before).text.toList) :
        c ∈ directory.text.toList ∨ c = '/' ∨ ∃ each ∈ before ++ [name], c ∈ each.toList := by
      rcases ih hbefore hmem with hold | hslash | ⟨each, heach, hin⟩
      · exact .inl hold
      · exact .inr (.inl hslash)
      · exact .inr (.inr ⟨each, List.mem_append_left _ heach, hin⟩)
    rw [below_concat, Path.text_join (hname name List.mem_cons_self)] at hc
    split at hc
    · rw [String.toList_append, List.mem_append] at hc
      rcases hc with hmem | hmem
      · exact hearly hmem
      · exact .inr (.inr (hlast hmem))
    · rw [String.toList_append, String.toList_append, List.mem_append, List.mem_append] at hc
      rcases hc with (hmem | hslash) | hmem
      · exact hearly hmem
      · exact .inr (.inl (List.mem_singleton.mp hslash))
      · exact .inr (.inr (hlast hmem))

end Discovery

namespace FileStore

open Discovery (below)

variable {store : FileStore} {location : Location} {names : List String} {directory : Path}

theorem refusal?_eq_none_iff {path : Path} :
    refusal? path = none ↔
      '\x00' ∉ path.text.toList ∧ path.text ≠ "" ∧ path.text.utf8ByteSize ≤ pathLimit := by
  rw [refusal?]
  by_cases hnul : '\x00' ∈ path.text.toList
  · simp [hnul]
  · by_cases hempty : path.text = ""
    · simp [hempty]
    · by_cases hsize : pathLimit < path.text.utf8ByteSize
      · simp [hnul, hempty, hsize]
      · simp [hnul, hempty, hsize, Nat.le_of_not_lt hsize]

/-- A path below one that is not refused is refused for its length alone. -/
theorem refusal?_below (hnames : ∀ name ∈ names, Path.IsName name ∧ '\x00' ∉ name.toList)
    (hne : names ≠ []) (hsize : (below directory names).text.utf8ByteSize ≤ pathLimit)
    (h : refusal? directory = none) : refusal? (below directory names) = none := by
  have hisName : ∀ name ∈ names, Path.IsName name := fun name hname => (hnames name hname).1
  obtain ⟨hnul, -, -⟩ := refusal?_eq_none_iff.mp h
  refine refusal?_eq_none_iff.mpr ⟨?_, ?_, hsize⟩
  · intro hmem
    rcases Discovery.mem_text_below hisName hmem with hold | hslash | ⟨name, hname, hin⟩
    · exact hnul hold
    · exact absurd hslash (by decide)
    · exact (hnames name hname).2 hin
  · -- the empty path has one piece, which is no name
    intro hempty
    obtain ⟨name, hname⟩ := List.exists_mem_of_ne_nil names hne
    obtain ⟨above, hpieces, -⟩ := Discovery.pieces_below hisName hne directory
    have hmem : name ∈ (below directory names).pieces := by
      rw [hpieces]
      exact List.mem_append_right _ hname
    rw [Path.pieces, hempty] at hmem
    have hstep := (hisName name hname).isStep
    rw [List.mem_singleton.mp hmem] at hstep
    cases hstep

/-- **A file below a directory is found under its path**, unless that is too long. -/
theorem IsTree.find_below (h : store.IsTree) {isWritable : Bool}
    (hfind : store.find directory = .ok (location, .directory isWritable)) {id : Nat}
    (hget : store.get? (location ++ names) = some (.file id))
    (hsize : (below directory names).text.utf8ByteSize ≤ pathLimit) :
    store.find (below directory names) = .ok (location ++ names, .file id) := by
  obtain ⟨hlocate, hdirectory⟩ := find_eq_ok_iff.mp hfind
  have hne : names ≠ [] := by
    rintro rfl
    rw [List.append_nil, hdirectory] at hget
    cases hget
  have hmem := (h.get?_eq_some_iff (List.append_ne_nil_of_right_ne_nil _ hne)).mp hget
  have hnames : ∀ name ∈ names, Path.IsName name :=
    fun name hname => h.isName_of_get? hget (List.mem_append_right _ hname)
  have hfits : ∀ name ∈ names, Path.IsName name ∧ '\x00' ∉ name.toList :=
    fun name hname =>
      ⟨hnames name hname, (h.fits _ hmem name (List.mem_append_right _ hname)).2⟩
  obtain ⟨above, hpieces, habove⟩ := Discovery.pieces_below hnames hne directory
  rw [locate_eq] at hlocate
  cases hrefusal : refusal? directory with
  | some error =>
    rw [hrefusal] at hlocate
    cases hlocate
  | none =>
    rw [hrefusal] at hlocate
    have hstart : store.startOf (below directory names) = store.startOf directory := by
      rw [startOf, startOf, Discovery.isAbsolute_below hnames]
    have hto : store.followLinks .look linkLimit (store.startOf directory) above =
        .ok location := by
      rcases habove with hsame | hslash
      · rw [← hsame]
        exact hlocate
      · rw [hslash] at hlocate
        exact followLinks_of_append_empty hlocate
    refine find_eq_ok_iff.mpr ⟨?_, hget⟩
    rw [locate_eq, refusal?_below hfits hne hsize hrefusal, hstart, hpieces]
    exact followLinks_append ⟨isWritable, hdirectory⟩ (fun _ => h.follow_names hget) hto

end FileStore

end SyntaxForest
