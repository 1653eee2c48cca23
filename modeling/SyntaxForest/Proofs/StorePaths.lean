import SyntaxForest.FileStore
import SyntaxForest.Proofs.NameMap
import SyntaxForest.Proofs.PathNames

/-! Where paths lead.  Where there are no links, the location that a path leads to depends
on the directories alone; a path into a directory leads there with its last name added,
and a path that a file can be put at leads there when it is only looked at. -/

namespace SyntaxForest.FileStore

variable {store before after : FileStore}

/-! ## Entries -/

@[simp] theorem get?_root : store.get? [] = some (.directory true) :=
  if_pos rfl

/-- No links stand anywhere. -/
def NoLinks (store : FileStore) : Prop :=
  ∀ location target, store.get? location ≠ some (.link target)

/-- Whether an entry is a link. -/
def Entry.isLink : Entry → Bool
  | .link _ => true
  | _ => false

theorem noLinks_of_entries (h : ∀ entry ∈ store.entries, entry.2.isLink = false) :
    store.NoLinks := by
  intro location target hget
  rw [get?] at hget
  split at hget
  · cases hget
  · rw [List.lookup_eq_some_iff] at hget
    obtain ⟨above, below, hentries, -⟩ := hget
    have hlink := h (location, .link target) (by rw [hentries]; simp)
    cases hlink

/-- A directory stands at a location. -/
def HasDirectory (store : FileStore) (location : Location) : Prop :=
  ∃ isWritable, store.get? location = some (.directory isWritable)

/-! ## Following pieces -/

section follow

variable {purpose : Purpose} {onLink : Location → List String → Except SystemError Location}
variable {place : Location} {piece : String} {rest : List String}

/-- Pieces that are no steps are passed over. -/
theorem follow_skip (h : Path.isStep piece = false) :
    store.follow purpose onLink place (piece :: rest) = store.follow purpose onLink place rest := by
  rw [follow, h]
  exact if_pos rfl

/-- Two points lead up. -/
theorem follow_up :
    store.follow purpose onLink place (".." :: rest) =
      store.follow purpose onLink place.dropLast rest := by
  rw [follow, if_neg (by decide), if_pos rfl]

/-- What a name leads to. -/
theorem follow_name (hstep : Path.isStep piece = true) (hup : piece ≠ "..") :
    store.follow purpose onLink place (piece :: rest) =
      if purpose = .create && rest ≠ [] && rest.all (· = "") then .error .isADirectory
      else if nameLimit < piece.utf8ByteSize then .error .nameTooLong
      else
        match store.get? (place ++ [piece]) with
        | none => if rest = [] then .ok (place ++ [piece]) else .error .noEntry
        | some (.file _) => if rest = [] then .ok (place ++ [piece]) else .error .notADirectory
        | some (.directory _) => store.follow purpose onLink (place ++ [piece]) rest
        | some (.link target) =>
          onLink (if target.isAbsolute then [] else place) (target.pieces ++ rest) := by
  rw [follow, hstep]
  exact (if_neg (by decide)).trans (if_neg hup)

/-- Where there are no links, a name is passed when it leads to a directory, and at the
end of the pieces whatever it leads to. -/
theorem follow_name_eq_ok_iff (hlinks : store.NoLinks) (hstep : Path.isStep piece = true)
    (hup : piece ≠ "..") {location : Location} :
    store.follow purpose onLink place (piece :: rest) = .ok location ↔
      (purpose = .create && rest ≠ [] && rest.all (· = "")) = false ∧
        piece.utf8ByteSize ≤ nameLimit ∧
        (store.HasDirectory (place ++ [piece]) ∧
            store.follow purpose onLink (place ++ [piece]) rest = .ok location ∨
          ¬ store.HasDirectory (place ++ [piece]) ∧ rest = [] ∧ location = place ++ [piece]) := by
  rw [follow_name hstep hup]
  cases (purpose = .create && rest ≠ [] && rest.all (· = "")) with
  | true => simp
  | false =>
    by_cases hsize : nameLimit < piece.utf8ByteSize
    · simp [hsize, Nat.not_le_of_lt hsize]
    · have hsize' := Nat.le_of_not_lt hsize
      cases hget : store.get? (place ++ [piece]) with
      | none =>
        by_cases hrest : rest = [] <;> simp [hsize, hsize', HasDirectory, hget, hrest, eq_comm]
      | some entry =>
        cases entry with
        | file content =>
          by_cases hrest : rest = [] <;> simp [hsize, hsize', HasDirectory, hget, hrest, eq_comm]
        | directory isWritable => simp [hsize, hsize', HasDirectory, hget]
        | link target => exact absurd hget (hlinks _ target)

end follow

/-- Where there are no links, it depends on the directories alone where pieces lead. -/
theorem follow_eq_ok_iff (hbefore : before.NoLinks) (hafter : after.NoLinks)
    (hdirectory : ∀ location, before.HasDirectory location ↔ after.HasDirectory location)
    {purpose : Purpose} {f g : Location → List String → Except SystemError Location}
    {place location : Location} {pieces : List String} :
    before.follow purpose f place pieces = .ok location ↔
      after.follow purpose g place pieces = .ok location := by
  induction pieces generalizing place with
  | nil => rfl
  | cons piece rest ih =>
    by_cases hstep : Path.isStep piece = true
    · by_cases hup : piece = ".."
      · rw [hup, follow_up, follow_up, ih]
      · rw [follow_name_eq_ok_iff hbefore hstep hup, follow_name_eq_ok_iff hafter hstep hup,
          hdirectory, ih]
    · rw [Bool.not_eq_true] at hstep
      rw [follow_skip hstep, follow_skip hstep, ih]

/-- Where there are no links, it does not matter how many are followed. -/
theorem followLinks_eq_ok_iff (hlinks : store.NoLinks) {purpose : Purpose} {links : Nat}
    {f : Location → List String → Except SystemError Location}
    {place location : Location} {pieces : List String} :
    store.followLinks purpose links place pieces = .ok location ↔
      store.follow purpose f place pieces = .ok location := by
  cases links with
  | zero => exact follow_eq_ok_iff hlinks hlinks fun _ => Iff.rfl
  | succ links => exact follow_eq_ok_iff hlinks hlinks fun _ => Iff.rfl

/-- Where a path is followed from. -/
def startOf (store : FileStore) (path : Path) : Location :=
  if path.isAbsolute then [] else store.workingDirectory

/-- Why the text of a path is not taken at all. -/
def refusal? (path : Path) : Option SystemError :=
  if path.text.toList.contains '\x00' then some .nulInPath
  else if path.text = "" then some .noEntry
  else if pathLimit < path.text.utf8ByteSize then some .nameTooLong
  else none

/-- A path is refused for its text, or else its pieces are followed. -/
theorem locate_eq (purpose : Purpose) (path : Path) :
    store.locate purpose path =
      match refusal? path with
      | some error => .error error
      | none => store.followLinks purpose linkLimit (store.startOf path) path.pieces := by
  rw [locate, refusal?]
  by_cases hnul : path.text.toList.contains '\x00' = true
  · rw [if_pos hnul, if_pos hnul]
  · rw [if_neg hnul, if_neg hnul]
    by_cases hempty : path.text = ""
    · rw [if_pos hempty, if_pos hempty]
    · rw [if_neg hempty, if_neg hempty]
      by_cases hsize : pathLimit < path.text.utf8ByteSize
      · rw [if_pos hsize, if_pos hsize]
      · rw [if_neg hsize, if_neg hsize]
        rfl

theorem locate_eq_ok_iff (hlinks : store.NoLinks) {purpose : Purpose} {path : Path}
    {f : Location → List String → Except SystemError Location} {location : Location} :
    store.locate purpose path = .ok location ↔
      refusal? path = none ∧
        store.follow purpose f (store.startOf path) path.pieces = .ok location := by
  rw [locate_eq]
  cases refusal? path with
  | some error => simp
  | none => rw [followLinks_eq_ok_iff hlinks, and_iff_right rfl]

/-- Pieces at whose end a file can be put lead there when they are only looked at. -/
theorem follow_look_of_create
    {f g : Location → List String → Except SystemError Location} {place location : Location}
    {pieces : List String}
    (hlink : ∀ place pieces, f place pieces = .ok location → g place pieces = .ok location)
    (h : store.follow .create f place pieces = .ok location) :
    store.follow .look g place pieces = .ok location := by
  induction pieces generalizing place with
  | nil => exact h
  | cons piece rest ih =>
    by_cases hstep : Path.isStep piece = true
    · by_cases hup : piece = ".."
      · rw [hup, follow_up] at h ⊢
        exact ih h
      · rw [follow_name hstep hup] at h ⊢
        rw [if_neg (by simp)]
        -- what is refused for a slash at the end or a long name does not get here
        split at h
        · cases h
        split at h
        · cases h
        rename_i hsize
        rw [if_neg hsize]
        cases hget : store.get? (place ++ [piece]) with
        | none => simpa only [hget] using h
        | some entry =>
          rw [hget] at h
          cases entry with
          | file content => exact h
          | directory isWritable => exact ih h
          | link target => exact hlink _ _ h
    · rw [Bool.not_eq_true] at hstep
      rw [follow_skip hstep] at h ⊢
      exact ih h

theorem followLinks_look_of_create {links : Nat} {place location : Location}
    {pieces : List String} (h : store.followLinks .create links place pieces = .ok location) :
    store.followLinks .look links place pieces = .ok location := by
  induction links generalizing place pieces with
  | zero => exact follow_look_of_create (fun _ _ hlink => hlink) h
  | succ links ih => exact follow_look_of_create (fun _ _ hlink => ih hlink) h

/-- A path that a file can be put at leads there when it is only looked at. -/
theorem locate_look_of_create {path : Path} {location : Location}
    (h : store.locate .create path = .ok location) : store.locate .look path = .ok location := by
  rw [locate_eq] at h ⊢
  cases hrefusal : refusal? path with
  | some error => rw [hrefusal] at h; exact h
  | none => rw [hrefusal] at h; exact followLinks_look_of_create h

/-! ## Directories and the names in them -/

/-- The directory that pieces lead to, when all of them lead to directories. -/
def enter? (store : FileStore) : Location → List String → Option Location
  | place, [] => some place
  | place, piece :: rest =>
    if !Path.isStep piece then enter? store place rest
    else if piece = ".." then enter? store place.dropLast rest
    else if nameLimit < piece.utf8ByteSize then none
    else
      match store.get? (place ++ [piece]) with
      | some (.directory _) => enter? store (place ++ [piece]) rest
      | _ => none

section enter

variable {place directory : Location} {piece : String} {rest : List String}

theorem enter?_skip (h : Path.isStep piece = false) :
    store.enter? place (piece :: rest) = store.enter? place rest := by
  rw [enter?, h]
  exact if_pos rfl

theorem enter?_up : store.enter? place (".." :: rest) = store.enter? place.dropLast rest := by
  rw [enter?, if_neg (by decide), if_pos rfl]

/-- A name is entered when a directory stands there. -/
theorem enter?_name_eq_some_iff (hstep : Path.isStep piece = true) (hup : piece ≠ "..") :
    store.enter? place (piece :: rest) = some directory ↔
      piece.utf8ByteSize ≤ nameLimit ∧ store.HasDirectory (place ++ [piece]) ∧
        store.enter? (place ++ [piece]) rest = some directory := by
  rw [enter?, hstep, if_neg (by decide), if_neg hup]
  by_cases hsize : nameLimit < piece.utf8ByteSize
  · simp [hsize, Nat.not_le_of_lt hsize]
  · rw [if_neg hsize, and_iff_right (Nat.le_of_not_lt hsize)]
    split
    · rename_i isWritable hget
      rw [and_iff_right ⟨isWritable, hget⟩]
    · rename_i hget
      constructor
      · intro h
        cases h
      · rintro ⟨⟨isWritable, hdirectory⟩, -⟩
        exact absurd hdirectory (hget isWritable)

end enter

theorem enter?_append_empty (place : Location) (pieces : List String) :
    store.enter? place (pieces ++ [""]) = store.enter? place pieces := by
  induction pieces generalizing place with
  | nil => rfl
  | cons piece rest ih => simp only [List.cons_append, enter?, ih]

/-- What pieces with a name at their end lead to stands in a directory under that name. -/
theorem enter?_of_follow (hlinks : store.NoLinks) {purpose : Purpose}
    {onLink : Location → List String → Except SystemError Location} {place location : Location}
    {pieces : List String} {name : String} (hname : Path.IsName name)
    (h : store.follow purpose onLink place (pieces ++ [name]) = .ok location) :
    ∃ directory, store.enter? place pieces = some directory ∧ location = directory ++ [name] := by
  induction pieces generalizing place with
  | nil =>
    refine ⟨place, rfl, ?_⟩
    obtain ⟨-, -, ⟨-, hend⟩ | ⟨-, -, hend⟩⟩ :=
      (follow_name_eq_ok_iff hlinks hname.isStep hname.ne_up).mp h
    · exact (Except.ok.inj hend).symm
    · exact hend
  | cons piece rest ih =>
    rw [List.cons_append] at h
    by_cases hstep : Path.isStep piece = true
    · by_cases hup : piece = ".."
      · rw [hup, follow_up] at h
        rw [hup, enter?_up]
        exact ih h
      · obtain ⟨-, hsize, ⟨hdirectory, hrest⟩ | ⟨-, hrest, -⟩⟩ :=
          (follow_name_eq_ok_iff hlinks hstep hup).mp h
        · obtain ⟨directory, henter, hlocation⟩ := ih hrest
          exact ⟨directory,
            (enter?_name_eq_some_iff hstep hup).mpr ⟨hsize, hdirectory, henter⟩, hlocation⟩
        · exact absurd hrest (by simp)
    · rw [Bool.not_eq_true] at hstep
      rw [follow_skip hstep] at h
      rw [enter?_skip hstep]
      exact ih h

/-- The directory that a path leads to. -/
def directory? (store : FileStore) (path : Path) : Option Location :=
  store.enter? (store.startOf path) path.pieces

/-- A name added to a path is a piece more after those that lead to its directory. -/
theorem directory?_join {name : String} (hname : Path.IsName name) (path : Path) :
    ∃ above, (path.join name).pieces = above ++ [name] ∧
      store.directory? path = store.enter? (store.startOf (path.join name)) above := by
  obtain ⟨above, hjoin, hpieces⟩ := Path.pieces_join hname path
  refine ⟨above, hjoin, ?_⟩
  rw [directory?, startOf, startOf, Path.isAbsolute_join hname]
  rcases hpieces with hpieces | hpieces
  · rw [hpieces]
  · rw [hpieces, enter?_append_empty]

/-- A path with a name added leads into a directory. -/
theorem directory?_of_locate_join (hlinks : store.NoLinks) {path : Path} {name : String}
    (hname : Path.IsName name) {purpose : Purpose} {location : Location}
    (h : store.locate purpose (path.join name) = .ok location) :
    ∃ directory, store.directory? path = some directory ∧ location = directory ++ [name] := by
  obtain ⟨above, hpieces, hdirectory⟩ := directory?_join hname path
  obtain ⟨-, hfollow⟩ := (locate_eq_ok_iff hlinks (f := fun _ _ => .error .noEntry)).mp h
  rw [hpieces] at hfollow
  rw [hdirectory]
  exact enter?_of_follow hlinks hname hfollow

theorem follow_skip_all {purpose : Purpose}
    {onLink : Location → List String → Except SystemError Location} {pieces : List String}
    (h : ∀ piece ∈ pieces, Path.isStep piece = false) (place : Location) :
    store.follow purpose onLink place pieces = .ok place := by
  induction pieces with
  | nil => rfl
  | cons piece rest ih =>
    rw [follow_skip (h piece List.mem_cons_self)]
    exact ih fun other hother => h other (List.mem_cons_of_mem piece hother)

/-- Pieces lead to a location that ends with the last name among them. -/
theorem exists_concat_of_follow (hlinks : store.NoLinks) {purpose : Purpose}
    {onLink : Location → List String → Except SystemError Location} {place location : Location}
    {above later : List String} {name : String} (hname : Path.IsName name)
    (hlater : ∀ piece ∈ later, Path.isStep piece = false)
    (h : store.follow purpose onLink place (above ++ name :: later) = .ok location) :
    ∃ directory, location = directory ++ [name] := by
  induction above generalizing place with
  | nil =>
    obtain ⟨-, -, ⟨-, hend⟩ | ⟨-, -, hend⟩⟩ :=
      (follow_name_eq_ok_iff hlinks hname.isStep hname.ne_up).mp h
    · rw [follow_skip_all hlater] at hend
      exact ⟨place, (Except.ok.inj hend).symm⟩
    · exact ⟨place, hend⟩
  | cons piece rest ih =>
    rw [List.cons_append] at h
    by_cases hstep : Path.isStep piece = true
    · by_cases hup : piece = ".."
      · rw [hup, follow_up] at h
        exact ih h
      · obtain ⟨-, -, ⟨-, hrest⟩ | ⟨-, hrest, -⟩⟩ :=
          (follow_name_eq_ok_iff hlinks hstep hup).mp h
        · exact ih hrest
        · exact absurd hrest (by simp)
    · rw [Bool.not_eq_true] at hstep
      rw [follow_skip hstep] at h
      exact ih h

/-- A path leads to a location that ends with its file name. -/
theorem exists_concat_of_locate (hlinks : store.NoLinks) {path : Path} {name : String}
    (hname : path.fileName? = some name) {purpose : Purpose} {location : Location}
    (h : store.locate purpose path = .ok location) :
    ∃ directory, location = directory ++ [name] := by
  obtain ⟨hplain, above, later, hpieces, hlater⟩ := Path.pieces_of_fileName? hname
  obtain ⟨-, hfollow⟩ := (locate_eq_ok_iff hlinks (f := fun _ _ => .error .noEntry)).mp h
  rw [hpieces] at hfollow
  exact exists_concat_of_follow hlinks hplain hlater hfollow

end SyntaxForest.FileStore
