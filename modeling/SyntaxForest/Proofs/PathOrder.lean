import Mathlib.Data.List.Lex
import SyntaxForest.Proofs.PathNames

/-! Paths by their components.  A name that is joined to a path becomes its last
component, however the path is written.  Paths are sorted component by component, so
that what stands in a directory comes before everything that follows the directory. -/

namespace SyntaxForest.Path

/-! ## The order of paths -/

namespace Component

/-- One component comes before another: by their kinds, and names in the order of their
code points. -/
def Before (a b : Component) : Prop :=
  a.key.1 < b.key.1 ∨ a.key.1 = b.key.1 ∧ a.key.2 < b.key.2

instance decidableBefore : DecidableRel Before := fun a b =>
  inferInstanceAs (Decidable (a.key.1 < b.key.1 ∨ a.key.1 = b.key.1 ∧ a.key.2 < b.key.2))

theorem key_injective {a b : Component} (h : a.key = b.key) : a = b := by
  cases a <;> cases b <;> simp_all [key]

/-- The computed order of components is the order by their keys. -/
theorem le_iff_not_before {a b : Component} : a.le b = true ↔ ¬ b.Before a := by
  rw [le, Before, Bool.or_eq_true, Bool.and_eq_true, decide_eq_true_iff, decide_eq_true_iff,
    decide_eq_true_iff, ← Std.not_lt]
  by_cases hname : b.key.2 < a.key.2
  · simp only [hname, not_true_eq_false, and_false, or_false, and_true]
    omega
  · simp only [hname, not_false_eq_true, and_true, and_false, or_false]
    omega

instance : Std.Asymm Before where
  asymm := by
    rintro a b (hkind | ⟨hkind, hname⟩) (hkind' | ⟨hkind', hname'⟩)
    · omega
    · omega
    · omega
    · exact String.lt_asymm hname hname'

instance : Std.Trichotomous Before where
  trichotomous := by
    intro a b hab hba
    rw [Before, not_or, not_and] at hab hba
    have hkind : a.key.1 = b.key.1 := by omega
    have hname : a.key.2 = b.key.2 :=
      String.le_antisymm (Std.not_lt.mp (hba.2 hkind.symm)) (Std.not_lt.mp (hab.2 hkind))
    exact key_injective (Prod.ext hkind hname)

instance : IsOrderConnected Component Before where
  conn := by
    rintro a b c (hkind | ⟨hkind, hname⟩)
    · by_cases hab : a.key.1 < b.key.1
      · exact .inl (.inl hab)
      · exact .inr (.inl (by omega))
    · by_cases hab : a.key.1 = b.key.1
      · by_cases hlt : a.key.2 < b.key.2
        · exact .inl (.inr ⟨hab, hlt⟩)
        · exact .inr (.inr ⟨by omega, Std.lt_of_le_of_lt (Std.not_lt.mp hlt) hname⟩)
      · by_cases hlt : a.key.1 < b.key.1
        · exact .inl (.inl hlt)
        · exact .inr (.inl (by omega))

end Component

/-- One path comes before another, component by component. -/
def Before (a b : Path) : Prop :=
  List.Lex Component.Before a.components b.components

instance decidableBefore : DecidableRel Before := fun a b =>
  inferInstanceAs (Decidable (List.Lex Component.Before a.components b.components))

/-- The computed order of lists of components is the lexicographic one. -/
theorem go_iff_not_lex {as bs : List Component} :
    le.go as bs = true ↔ ¬ List.Lex Component.Before bs as := by
  induction as generalizing bs with
  | nil => simp [le.go]
  | cons a as ih =>
    cases bs with
    | nil => simp [le.go]
    | cons b bs =>
      rw [le.go]
      by_cases heq : a = b
      · rw [if_pos heq, ih, heq, List.lex_cons_iff]
      · rw [if_neg heq, Component.le_iff_not_before, not_iff_not]
        constructor
        · exact .rel
        · intro hlex
          cases hlex with
          | rel hbefore => exact hbefore
          | cons _ => exact absurd rfl heq

/-- The order that paths are sorted by. -/
theorem le_iff_not_before {a b : Path} : a.le b = true ↔ ¬ b.Before a :=
  go_iff_not_lex

/-- The order of paths is transitive. -/
theorem le_trans {a b c : Path} (hab : a.le b = true) (hbc : b.le c = true) : a.le c = true := by
  rw [le_iff_not_before] at hab hbc ⊢
  intro hca
  rcases IsOrderConnected.conn c.components b.components a.components hca with hcb | hba
  · exact hbc hcb
  · exact hab hba

theorem le_total (a b : Path) : (a.le b || b.le a) = true := by
  rw [Bool.or_eq_true, le_iff_not_before, le_iff_not_before]
  by_cases hba : b.Before a
  · exact .inr (asymm_of (List.Lex Component.Before) hba)
  · exact .inl hba

/-- Of two paths with different components one comes before the other. -/
theorem before_of_le {a b : Path} (hle : a.le b = true) (hne : a.components ≠ b.components) :
    a.Before b := by
  by_contra hab
  exact hne (Std.Trichotomous.trichotomous (r := List.Lex Component.Before) _ _ hab
    (le_iff_not_before.mp hle))

instance : Std.Asymm Before where
  asymm := fun _ _ hab => asymm_of (List.Lex Component.Before) hab

/-! ## Components of joined paths -/

/-- The components of pieces after the start of a path. -/
def stepsOf (pieces : List String) : List Component :=
  (pieces.filter isStep).map Component.ofPiece

theorem stepsOf_append (front back : List String) :
    stepsOf (front ++ back) = stepsOf front ++ stepsOf back := by
  rw [stepsOf, List.filter_append, List.map_append, ← stepsOf, ← stepsOf]

theorem stepsOf_name {name : String} (h : IsName name) : stepsOf [name] = [.name name] := by
  rw [stepsOf, List.filter_cons_of_pos h.isStep, List.filter_nil, List.map_singleton,
    Component.ofPiece, if_neg h.ne_up]

/-- The components of a path, by its first piece. -/
theorem components_of_pieces {path : Path} {first : String} {rest : List String}
    (h : path.pieces = first :: rest) :
    path.components =
      if first = "" then (if rest = [] then [] else .root :: stepsOf rest)
      else if first = "." then .here :: stepsOf rest
      else stepsOf (first :: rest) := by
  rw [components, parts, h]
  split
  · rename_i tail heq
    obtain ⟨rfl, rfl⟩ := List.cons.inj heq
    rw [if_pos rfl]
    split <;> rfl
  · rename_i tail heq
    obtain ⟨rfl, rfl⟩ := List.cons.inj heq
    rfl
  · rename_i hempty hpoint
    rw [if_neg (fun heq => hempty rest (by rw [heq])),
      if_neg (fun heq => hpoint rest (by rw [heq]))]
    rfl

theorem text_eq_empty_of_pieces {path : Path} (h : path.pieces = [""]) : path.text = "" := by
  rw [pieces] at h
  cases hchars : path.text.toList with
  | nil => exact String.toList_eq_nil_iff.mp hchars
  | cons c rest =>
    obtain ⟨piece, pieces, hrest⟩ := exists_piecesOf rest
    rw [hchars, piecesOf_cons hrest] at h
    split at h
    · simp at h
    · simp [← String.toList_inj] at h

/-- A path with some text shares its first piece with what is below it. -/
theorem exists_pieces_join {name : String} (h : IsName name) {directory : Path}
    (htext : directory.text ≠ "") :
    ∃ first rest tail, (directory.join name).pieces = first :: (rest ++ [name]) ∧
      directory.pieces = first :: tail ∧ stepsOf tail = stepsOf rest ∧
        (first = "" → tail ≠ []) := by
  have hne : directory.pieces ≠ [""] := fun heq => htext (text_eq_empty_of_pieces heq)
  obtain ⟨above, hjoin, hpieces⟩ := pieces_join h directory
  cases above with
  | nil =>
    obtain ⟨piece, later, hsome⟩ := exists_piecesOf directory.text.toList
    rcases hpieces with hpieces | hpieces
    · simp [pieces, hsome] at hpieces
    · exact absurd hpieces hne
  | cons first rest =>
    rcases hpieces with hpieces | hpieces
    · refine ⟨first, rest, rest, hjoin, hpieces, rfl, ?_⟩
      rintro rfl rfl
      exact hne hpieces
    · refine ⟨first, rest, rest ++ [""], hjoin, hpieces, ?_, ?_⟩
      · rw [stepsOf_append]
        exact List.append_nil _
      · intro _
        exact List.concat_ne_nil "" rest

/-- **A name that is joined to a path becomes its last component.** -/
theorem components_join {name : String} (h : IsName name) (directory : Path) :
    (directory.join name).components = directory.components ++ [.name name] := by
  by_cases htext : directory.text = ""
  · have hjoin : (directory.join name).pieces = [name] := by
      rw [pieces, text_join h, if_pos (.inl htext), htext, String.empty_append,
        piecesOf_of_notMem h.slash_notMem, List.map_singleton, String.ofList_toList]
    have hpieces : directory.pieces = [""] := by
      rw [pieces, htext]
      rfl
    have hstep := h.isStep
    rw [isStep, Bool.and_eq_true, decide_eq_true_iff, decide_eq_true_iff] at hstep
    rw [components_of_pieces hjoin, components_of_pieces hpieces, if_neg hstep.1, if_neg hstep.2,
      stepsOf_name h]
    rfl
  · obtain ⟨first, rest, tail, hjoin, hpieces, hsteps, hroot⟩ := exists_pieces_join h htext
    rw [components_of_pieces hjoin, components_of_pieces hpieces]
    by_cases hempty : first = ""
    · rw [if_pos hempty, if_pos hempty, if_neg (List.concat_ne_nil _ _), if_neg (hroot hempty),
        stepsOf_append, stepsOf_name h, hsteps, List.cons_append]
    · rw [if_neg hempty, if_neg hempty]
      by_cases hpoint : first = "."
      · rw [if_pos hpoint, if_pos hpoint, stepsOf_append, stepsOf_name h, hsteps,
          List.cons_append]
      · rw [if_neg hpoint, if_neg hpoint, ← List.cons_append, stepsOf_append, stepsOf_name h,
          ← List.singleton_append, stepsOf_append, ← hsteps, ← stepsOf_append]
        rfl

end SyntaxForest.Path
