import SyntaxForest.Java.ParseTree

/-! Document order of parse trees.  A node of a parse tree is told by the way that
leads down to it, since the same subtree may stand in several places.  `listing`
goes through the parts of the program at or below a node by recursion; it lists
exactly the parts that a way leads to, and their ways increase: a way comes
before those that go on from it, and of two ways that part the one through the
earlier child comes first. -/

namespace SyntaxForest.Java.ParseTree

/-- `way` leads down from `top` to `tree`: at each node it tells the place of a
child, and the child is part of the program. -/
inductive LeadsTo : ParseTree → List Nat → ParseTree → Prop
  | here (tree : ParseTree) : LeadsTo tree [] tree
  | down {top child tree : ParseTree} {place : Nat} {way : List Nat} :
    top.children[place]? = some child → child.isPart = true → LeadsTo child way tree →
      LeadsTo top (place :: way) tree

mutual

/-- The parts of the program at or below a node in document order, each with the
way that leads to it. -/
def listing : ParseTree → List (List Nat × ParseTree)
  | .node head children => ([], .node head children) :: listingAll 0 children

/-- The parts at or below the nodes of a list, the first of which is the child at
`place`. -/
def listingAll (place : Nat) : List ParseTree → List (List Nat × ParseTree)
  | [] => []
  | tree :: trees =>
    (if tree.isPart then tree.listing.map fun entry => (place :: entry.1, entry.2) else []) ++
      listingAll (place + 1) trees

end

theorem listing_eq (tree : ParseTree) :
    tree.listing = ([], tree) :: listingAll 0 tree.children := by
  cases tree
  rw [listing]
  rfl

/-- A way into a list of children begins with the place of one of them. -/
theorem mem_listingAll_iff {place : Nat} {trees : List ParseTree} {way : List Nat}
    {tree : ParseTree} :
    (way, tree) ∈ listingAll place trees ↔
      ∃ k child rest, trees[k]? = some child ∧ child.isPart = true ∧
        way = (place + k) :: rest ∧ (rest, tree) ∈ child.listing := by
  induction trees generalizing place with
  | nil => simp [listingAll]
  | cons first trees ih =>
    rw [listingAll, List.mem_append, ih]
    constructor
    · rintro (hfirst | ⟨k, child, rest, hchild, hpart, rfl, hrest⟩)
      · split at hfirst
        · rename_i hpart
          obtain ⟨⟨rest, found⟩, hmem, heq⟩ := List.mem_map.mp hfirst
          obtain ⟨rfl, rfl⟩ := Prod.mk.inj heq
          exact ⟨0, first, rest, rfl, hpart, rfl, hmem⟩
        · cases hfirst
      · exact ⟨k + 1, child, rest, hchild, hpart, by rw [Nat.add_right_comm, Nat.add_assoc], hrest⟩
    · rintro ⟨k, child, rest, hchild, hpart, rfl, hrest⟩
      cases k with
      | zero =>
        obtain rfl : first = child := Option.some.inj hchild
        refine Or.inl ?_
        rw [if_pos hpart]
        exact List.mem_map_of_mem (f := fun entry => (place :: entry.1, entry.2)) hrest
      | succ k =>
        exact Or.inr
          ⟨k, child, rest, hchild, hpart, by rw [Nat.add_right_comm, Nat.add_assoc], hrest⟩

/-- The listing tells exactly the parts that a way leads to. -/
theorem mem_listing_iff {top tree : ParseTree} {way : List Nat} :
    (way, tree) ∈ top.listing ↔ top.LeadsTo way tree := by
  induction way generalizing top with
  | nil =>
    rw [listing_eq, List.mem_cons]
    constructor
    · rintro (heq | hmem)
      · obtain ⟨_, rfl⟩ := Prod.mk.inj heq
        exact .here tree
      · obtain ⟨k, child, rest, _, _, hway, _⟩ := mem_listingAll_iff.mp hmem
        cases hway
    · intro hway
      cases hway
      exact Or.inl rfl
  | cons place way ih =>
    rw [listing_eq, List.mem_cons]
    constructor
    · rintro (heq | hmem)
      · cases (Prod.mk.inj heq).1
      · obtain ⟨k, child, rest, hchild, hpart, hway, hrest⟩ := mem_listingAll_iff.mp hmem
        obtain ⟨rfl, rfl⟩ := List.cons.inj hway
        rw [Nat.zero_add]
        exact .down hchild hpart (ih.mp hrest)
    · intro hway
      cases hway with
      | down hchild hpart hrest =>
        refine Or.inr (mem_listingAll_iff.mpr ⟨place, _, way, hchild, hpart, ?_, ih.mpr hrest⟩)
        rw [Nat.zero_add]

mutual

/-- The ways of a listing increase. -/
theorem listing_pairwise :
    (tree : ParseTree) → (tree.listing.map Prod.fst).Pairwise (List.Lex (· < ·))
  | .node head children => by
    rw [listing, List.map_cons, List.pairwise_cons]
    refine ⟨?_, listingAll_pairwise 0 children⟩
    intro way hway
    obtain ⟨⟨way, tree⟩, hmem, rfl⟩ := List.mem_map.mp hway
    obtain ⟨k, _, rest, _, _, rfl, _⟩ := mem_listingAll_iff.mp hmem
    exact .nil

theorem listingAll_pairwise (place : Nat) :
    (trees : List ParseTree) → ((listingAll place trees).map Prod.fst).Pairwise (List.Lex (· < ·))
  | [] => by
    rw [listingAll]
    exact .nil
  | first :: trees => by
    rw [listingAll, List.map_append, List.pairwise_append]
    refine ⟨?_, listingAll_pairwise (place + 1) trees, ?_⟩
    · split
      · rw [List.map_map]
        have hfirst := listing_pairwise first
        rw [List.pairwise_map] at hfirst ⊢
        exact hfirst.imp fun hlex => .cons hlex
      · exact .nil
    · -- the first step tells the two apart
      intro early hearly late hlate
      obtain ⟨⟨late, tree⟩, hmem, rfl⟩ := List.mem_map.mp hlate
      obtain ⟨k, _, rest, _, _, rfl, _⟩ := mem_listingAll_iff.mp hmem
      split at hearly
      · rw [List.map_map] at hearly
        obtain ⟨entry, _, rfl⟩ := List.mem_map.mp hearly
        refine .rel ?_
        omega
      · cases hearly

end

/-- A listing has one entry more than those of its parts together. -/
theorem length_listingAll (place : Nat) (trees : List ParseTree) :
    (listingAll place trees).length =
      ((trees.filter isPart).flatMap fun part => part.listing).length := by
  induction trees generalizing place with
  | nil => simp [listingAll]
  | cons first trees ih =>
    rw [listingAll, List.length_append, ih]
    by_cases hpart : first.isPart = true
    · simp [hpart]
    · simp [hpart]

theorem length_listing (tree : ParseTree) :
    tree.listing.length = (tree.parts.flatMap fun part => part.listing).length + 1 := by
  rw [listing_eq, List.length_cons, length_listingAll]
  rfl

end SyntaxForest.Java.ParseTree
