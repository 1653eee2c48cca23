import SyntaxForest.Proofs.StorePaths

/-! Files that are written.  Writing replaces what one file holds, or puts a new file where
nothing stood.  So when files have been written, every path leads where it led before,
what stood somewhere still stands there, and a file holds what it held unless one of its
names was written to. -/

namespace SyntaxForest.FileStore

variable {store before after : FileStore} {location : Location} {path : Path} {id : Nat}

/-! ## Files and their numbers -/

theorem ne_nil_of_get?_eq_none (h : store.get? location = none) : location ≠ [] := by
  rintro rfl
  rw [get?_root] at h
  cases h

/-- What stands somewhere but at the root is an entry of the store. -/
theorem mem_entries_of_get? {entry : Entry} (h : store.get? location = some entry)
    (hne : location ≠ []) : (location, entry) ∈ store.entries := by
  rw [get?, if_neg hne, List.lookup_eq_some_iff] at h
  obtain ⟨above, below, hentries, -⟩ := h
  rw [hentries]
  simp

/-- A number is new when it is above those of all files that have a name. -/
theorem lt_newNumber (h : store.get? location = some (.file id)) : id < store.newNumber := by
  have hne : location ≠ [] := by
    rintro rfl
    rw [get?_root] at h
    cases h
  have hmem := mem_entries_of_get? h hne
  rw [newNumber]
  generalize store.entries = entries at hmem
  induction entries with
  | nil => cases hmem
  | cons entry entries ih =>
    rw [List.foldr_cons]
    rcases List.mem_cons.mp hmem with rfl | hlater
    · exact Nat.lt_of_lt_of_le (Nat.lt_succ_self id) (Nat.le_max_left _ _)
    · have hlt := ih hlater
      split
      · exact Nat.lt_of_lt_of_le hlt (Nat.le_max_right _ _)
      · exact hlt

/-- A new file stands under a new number at its location, and all else stays. -/
theorem get?_addFile (h : location ≠ []) (content : ByteArray) (other : Location) :
    (store.addFile location content).get? other =
      if other = location then some (.file store.newNumber) else store.get? other := by
  rw [get?, get?, addFile, NameMap.lookup_setEntry]
  by_cases hroot : other = []
  · rw [if_pos hroot, if_pos hroot, if_neg (fun heq => h (heq.symm.trans hroot))]
  · rw [if_neg hroot, if_neg hroot]

theorem file_addFile (location : Location) (content : ByteArray) (id : Nat) :
    (store.addFile location content).file id =
      if id = store.newNumber then ⟨content, store.newAccess⟩ else store.file id := by
  rw [file, addFile, NameMap.lookup_setEntry]
  split <;> rfl

/-- Setting what a file holds leaves other files alone, and what may be done with it. -/
theorem file_setContent (id : Nat) (content : ByteArray) (other : Nat) :
    (store.setContent id content).file other =
      if other = id then { store.file id with content } else store.file other := by
  rw [file, setContent, NameMap.lookup_setEntry]
  split <;> rfl

/-- No file has two names. -/
def SingleNames (store : FileStore) : Prop :=
  ∀ location other id, store.get? location = some (.file id) →
    store.get? other = some (.file id) → location = other

/-- Whether an entry is a name of a file. -/
def Entry.isFile : Entry → Bool
  | .file _ => true
  | _ => false

theorem singleNames_of_entries
    (h : ∀ a ∈ store.entries, ∀ b ∈ store.entries, a.2.isFile = true → a.2 = b.2 → a.1 = b.1) :
    store.SingleNames := by
  have hmem {location : Location} {id : Nat} (hget : store.get? location = some (.file id)) :
      (location, .file id) ∈ store.entries := by
    refine mem_entries_of_get? hget ?_
    rintro rfl
    rw [get?_root] at hget
    cases hget
  intro location other id hlocation hother
  exact h _ (hmem hlocation) _ (hmem hother) rfl rfl

/-! ## What stands where a path leads -/

theorem find_eq_ok_iff {entry : Entry} :
    store.find path = .ok (location, entry) ↔
      store.locate .look path = .ok location ∧ store.get? location = some entry := by
  rw [find]
  cases store.locate .look path with
  | error error => simp [bind, Except.bind]
  | ok place =>
    simp only [bind, Except.bind, Except.ok.injEq]
    cases hget : store.get? place with
    | none =>
      simp only [reduceCtorEq, false_iff]
      rintro ⟨rfl, hentry⟩
      rw [hget] at hentry
      cases hentry
    | some other =>
      simp only [Except.ok.injEq, Prod.mk.injEq]
      constructor
      · rintro ⟨rfl, rfl⟩
        exact ⟨rfl, hget⟩
      · rintro ⟨rfl, hentry⟩
        exact ⟨rfl, Option.some.inj (hget.symm.trans hentry)⟩

/-- What the file that a path leads to holds, whether it may be read or not. -/
def content? (store : FileStore) (path : Path) : Option ByteArray :=
  match store.find path with
  | .ok (_, .file id) => some (store.file id).content
  | _ => none

theorem content?_of_find (h : store.find path = .ok (location, .file id)) :
    store.content? path = some (store.file id).content := by
  rw [content?, h]

theorem content?_eq_some_iff {content : ByteArray} :
    store.content? path = some content ↔
      ∃ location id, store.find path = .ok (location, .file id) ∧
        (store.file id).content = content := by
  constructor
  · intro h
    rw [content?] at h
    split at h
    · rename_i location id hfind
      exact ⟨location, id, hfind, Option.some.inj h⟩
    · cases h
  · rintro ⟨location, id, hfind, rfl⟩
    exact content?_of_find hfind

/-- What is read is what a file holds that may be read. -/
theorem read_eq_ok_iff {content : ByteArray} :
    store.read path = .ok content ↔
      ∃ location id, store.find path = .ok (location, .file id) ∧ store.mayRead id = true ∧
        (store.file id).content = content := by
  rw [read]
  cases store.find path with
  | error error => simp [bind, Except.bind]
  | ok found =>
    obtain ⟨location, entry⟩ := found
    cases entry with
    | file id =>
      simp only [bind, Except.bind, Except.ok.injEq, Prod.mk.injEq, Entry.file.injEq]
      constructor
      · intro h
        split at h
        · exact ⟨location, id, ⟨rfl, rfl⟩, by assumption, Except.ok.inj h⟩
        · cases h
      · rintro ⟨_, _, ⟨rfl, rfl⟩, hread, rfl⟩
        rw [if_pos hread]
    | directory isWritable => simp [bind, Except.bind]
    | link target => simp [bind, Except.bind]

/-- Why nothing can be written at a location. -/
def obstacle? (store : FileStore) (location : Location) : Option SystemError :=
  match store.get? location with
  | some (.file id) => if store.mayWrite id then none else some .permissionDenied
  | some (.directory _) => some .isADirectory
  | some (.link _) => some .tooManyLinks
  | none => if store.mayAdd location then none else some .permissionDenied

/-- The store with a content at a location: that of the file there, or of a new one. -/
def put (store : FileStore) (location : Location) (content : ByteArray) : FileStore :=
  match store.get? location with
  | some (.file id) => store.setContent id content
  | _ => store.addFile location content

/-- Writing puts a content at the location of a path, unless there is an obstacle. -/
theorem write_eq (path : Path) (content : ByteArray) :
    store.write path content =
      (store.locate .create path).bind fun location =>
        match store.obstacle? location with
        | some error => .error error
        | none => .ok (store.put location content) := by
  rw [write]
  cases store.locate .create path with
  | error error => rfl
  | ok location =>
    simp only [bind, Except.bind, obstacle?, put]
    cases store.get? location with
    | none => by_cases hadd : store.mayAdd location = true <;> simp [hadd]
    | some entry =>
      cases entry with
      | file id => by_cases hwrite : store.mayWrite id = true <;> simp [hwrite]
      | directory isWritable => rfl
      | link target => rfl

theorem write_eq_ok_iff {content : ByteArray} :
    store.write path content = .ok after ↔
      ∃ location, store.locate .create path = .ok location ∧
        store.obstacle? location = none ∧ after = store.put location content := by
  rw [write_eq]
  cases store.locate .create path with
  | error error => simp [Except.bind]
  | ok location =>
    cases hobstacle : store.obstacle? location with
    | none => simp [Except.bind, hobstacle, eq_comm]
    | some error => simp [Except.bind, hobstacle]

/-- A content can be put into a file that is there, or into a new one. -/
theorem obstacle?_eq_none_iff :
    store.obstacle? location = none ↔
      (∃ id, store.get? location = some (.file id) ∧ store.mayWrite id = true) ∨
        store.get? location = none ∧ store.mayAdd location = true := by
  rw [obstacle?]
  cases store.get? location with
  | none => simp
  | some entry => cases entry <;> simp

/-- A new file was made at a location: nothing stood there, and no other location has or
had the number of the file. -/
structure NewAt (before after : FileStore) (location : Location) (id : Nat) : Prop where
  get?_before : before.get? location = none
  mayAdd : before.mayAdd location = true
  get?_after : after.get? location = some (.file id)
  access_eq : (after.file id).access = before.newAccess
  nameless : ∀ other, before.get? other ≠ some (.file id)
  single : ∀ other, after.get? other = some (.file id) → other = location

/-- Files were written at some of the target locations, and nothing else changed: new
files were made at targets where nothing stood, and the files that hold something new are
those that stand at targets. -/
structure WrittenAt (targets : Location → Prop) (before after : FileStore) : Prop where
  workingDirectory_eq : after.workingDirectory = before.workingDirectory
  newAccess_eq : after.newAccess = before.newAccess
  isPrivileged_eq : after.isPrivileged = before.isPrivileged
  get?_cases : ∀ location, after.get? location = before.get? location ∨
    targets location ∧ ∃ id, NewAt before after location id
  file_cases : ∀ id, after.file id = before.file id ∨
    ∃ location, targets location ∧ after.get? location = some (.file id)
  access_eq : ∀ location id, before.get? location = some (.file id) →
    (after.file id).access = (before.file id).access

namespace WrittenAt

variable {targets : Location → Prop}

theorem refl (targets : Location → Prop) (store : FileStore) : WrittenAt targets store store :=
  ⟨rfl, rfl, rfl, fun _ => .inl rfl, fun _ => .inl rfl, fun _ _ _ => rfl⟩

theorem mono {others : Location → Prop} (h : WrittenAt targets before after)
    (hsub : ∀ location, targets location → others location) : WrittenAt others before after where
  workingDirectory_eq := h.workingDirectory_eq
  newAccess_eq := h.newAccess_eq
  isPrivileged_eq := h.isPrivileged_eq
  get?_cases location := (h.get?_cases location).imp_right fun ⟨htarget, hnew⟩ =>
    ⟨hsub location htarget, hnew⟩
  file_cases id := (h.file_cases id).imp_right fun ⟨location, htarget, hget⟩ =>
    ⟨location, hsub location htarget, hget⟩
  access_eq := h.access_eq

/-- What stood somewhere still stands there. -/
theorem get?_of_some (h : WrittenAt targets before after) {entry : Entry}
    (hget : before.get? location = some entry) : after.get? location = some entry := by
  rcases h.get?_cases location with hsame | ⟨-, id, hnew⟩
  · rw [hsame, hget]
  · rw [hnew.get?_before] at hget
    cases hget

theorem get?_eq (h : WrittenAt targets before after) (htarget : ¬ targets location) :
    after.get? location = before.get? location := by
  rcases h.get?_cases location with hsame | ⟨htarget', -⟩
  · exact hsame
  · exact absurd htarget' htarget

/-- What is no file stood there before. -/
theorem get?_iff_of_not_isFile (h : WrittenAt targets before after) {entry : Entry}
    (hentry : entry.isFile = false) :
    before.get? location = some entry ↔ after.get? location = some entry := by
  refine ⟨h.get?_of_some, fun hget => ?_⟩
  rcases h.get?_cases location with hsame | ⟨-, id, hnew⟩
  · rw [← hsame, hget]
  · rw [hnew.get?_after] at hget
    obtain rfl := Option.some.inj hget
    cases hentry

theorem hasDirectory_iff (h : WrittenAt targets before after) (location : Location) :
    before.HasDirectory location ↔ after.HasDirectory location :=
  exists_congr fun _ => h.get?_iff_of_not_isFile rfl

theorem noLinks (h : WrittenAt targets before after) (hlinks : before.NoLinks) :
    after.NoLinks := fun location target hlink =>
  hlinks location target ((h.get?_iff_of_not_isFile rfl).mpr hlink)

/-- New files may be put where they might be put before. -/
theorem mayAdd_eq (h : WrittenAt targets before after) (location : Location) :
    after.mayAdd location = before.mayAdd location := by
  rw [mayAdd, mayAdd, h.isPrivileged_eq]
  congr 1
  cases hget : before.get? location.dropLast with
  | none =>
    rcases h.get?_cases location.dropLast with hsame | ⟨-, id, hnew⟩
    · rw [hsame, hget]
    · -- a new file in the directory's place takes no more than nothing does
      rw [hnew.get?_after]
  | some entry => rw [h.get?_of_some hget]

/-- Only new files have names that they did not have before. -/
theorem get?_before (h : WrittenAt targets before after) {other : Location}
    (hget : before.get? location = some (.file id))
    (hother : after.get? other = some (.file id)) : before.get? other = some (.file id) := by
  rcases h.get?_cases other with hsame | ⟨-, made, hnew⟩
  · rw [← hsame, hother]
  · rw [hnew.get?_after] at hother
    cases hother
    exact absurd hget (hnew.nameless location)

/-- A file that has no second name gets none. -/
theorem singleNames (h : WrittenAt targets before after) (hsingle : before.SingleNames) :
    after.SingleNames := by
  intro location other id hlocation hother
  rcases h.get?_cases location with hsame | ⟨-, made, hnew⟩
  · rw [hsame] at hlocation
    exact hsingle location other id hlocation (h.get?_before hlocation hother)
  · -- a new file has the one name that it was made under
    have hmade := hlocation
    rw [hnew.get?_after] at hmade
    cases hmade
    exact (hnew.single other hother).symm

theorem newAt_of_newAt_left {middle : FileStore} (h : NewAt before middle location id)
    (h' : WrittenAt targets middle after) : NewAt before after location id where
  get?_before := h.get?_before
  mayAdd := h.mayAdd
  get?_after := h'.get?_of_some h.get?_after
  access_eq := (h'.access_eq location id h.get?_after).trans h.access_eq
  nameless := h.nameless
  single other hother := h.single other (h'.get?_before h.get?_after hother)

theorem newAt_of_newAt_right {middle : FileStore} (h : WrittenAt targets before middle)
    (h' : NewAt middle after location id) : NewAt before after location id where
  get?_before := by
    cases hget : before.get? location with
    | none => rfl
    | some entry => rw [← h'.get?_before, h.get?_of_some hget]
  mayAdd := by rw [← h.mayAdd_eq, h'.mayAdd]
  get?_after := h'.get?_after
  access_eq := by rw [h'.access_eq, h.newAccess_eq]
  nameless other hother := h'.nameless other (h.get?_of_some hother)
  single := h'.single

/-- What was written in two goes was written. -/
theorem trans {middle : FileStore} (h : WrittenAt targets before middle)
    (h' : WrittenAt targets middle after) : WrittenAt targets before after where
  workingDirectory_eq := h'.workingDirectory_eq.trans h.workingDirectory_eq
  newAccess_eq := h'.newAccess_eq.trans h.newAccess_eq
  isPrivileged_eq := h'.isPrivileged_eq.trans h.isPrivileged_eq
  get?_cases location := by
    rcases h'.get?_cases location with hsame | ⟨htarget, id, hnew⟩
    · rw [hsame]
      exact (h.get?_cases location).imp_right fun ⟨htarget, id, hnew⟩ =>
        ⟨htarget, id, newAt_of_newAt_left hnew h'⟩
    · exact .inr ⟨htarget, id, h.newAt_of_newAt_right hnew⟩
  file_cases id := by
    rcases h'.file_cases id with hsame | hwritten
    · rw [hsame]
      exact (h.file_cases id).imp_right fun ⟨location, htarget, hget⟩ =>
        ⟨location, htarget, h'.get?_of_some hget⟩
    · exact .inr hwritten
  access_eq location id hget :=
    (h'.access_eq location id (h.get?_of_some hget)).trans (h.access_eq location id hget)

/-! ## What paths lead to after writing -/

theorem startOf_eq (h : WrittenAt targets before after) (path : Path) :
    after.startOf path = before.startOf path := by
  rw [startOf, startOf, h.workingDirectory_eq]

/-- Every path leads where it led before. -/
theorem locate_eq_ok_iff (h : WrittenAt targets before after) (hlinks : before.NoLinks)
    {purpose : Purpose} :
    after.locate purpose path = .ok location ↔ before.locate purpose path = .ok location := by
  rw [FileStore.locate_eq_ok_iff hlinks (f := fun _ _ => .error .noEntry),
    FileStore.locate_eq_ok_iff (h.noLinks hlinks) (f := fun _ _ => .error .noEntry), h.startOf_eq,
    follow_eq_ok_iff hlinks (h.noLinks hlinks) h.hasDirectory_iff]

theorem find_eq_ok_iff (h : WrittenAt targets before after) (hlinks : before.NoLinks)
    {entry : Entry} (htarget : ¬ targets location) :
    after.find path = .ok (location, entry) ↔ before.find path = .ok (location, entry) := by
  rw [FileStore.find_eq_ok_iff, FileStore.find_eq_ok_iff, h.locate_eq_ok_iff hlinks,
    h.get?_eq htarget]

/-- A file that has a name is as it was, unless one of its names is a target. -/
theorem file_eq_or_target (h : WrittenAt targets before after)
    (hget : before.get? location = some (.file id)) :
    after.file id = before.file id ∨
      ∃ other, targets other ∧ before.get? other = some (.file id) :=
  (h.file_cases id).imp_right fun ⟨other, htarget, hother⟩ =>
    ⟨other, htarget, h.get?_before hget hother⟩

theorem file_eq (h : WrittenAt targets before after)
    (hfind : before.find path = .ok (location, .file id))
    (htarget : ∀ other, targets other → before.get? other ≠ some (.file id)) :
    after.file id = before.file id := by
  rcases h.file_eq_or_target (FileStore.find_eq_ok_iff.mp hfind).2 with hsame | ⟨other, hother⟩
  · exact hsame
  · exact absurd hother.2 (htarget other hother.1)

section singleNames

variable (h : WrittenAt targets before after) (hlinks : before.NoLinks)
variable (hsingle : before.SingleNames)
variable (htarget : ∀ location, before.locate .look path = .ok location → ¬ targets location)

include h htarget

theorem find_file_iff (hlinks : before.NoLinks) :
    after.find path = .ok (location, .file id) ↔ before.find path = .ok (location, .file id) := by
  by_cases hlocate : before.locate .look path = .ok location
  · exact h.find_eq_ok_iff hlinks (htarget location hlocate)
  · rw [FileStore.find_eq_ok_iff, FileStore.find_eq_ok_iff, h.locate_eq_ok_iff hlinks]
    simp only [hlocate, false_and]

include hsingle

/-- Where no file has two names, the file that a path leads to stays as it was, unless the
path leads to a target. -/
theorem file_eq_of_find (hfind : before.find path = .ok (location, .file id)) :
    after.file id = before.file id := by
  obtain ⟨hlocate, hget⟩ := FileStore.find_eq_ok_iff.mp hfind
  refine h.file_eq hfind fun other hother hget' => ?_
  obtain rfl := hsingle _ _ _ hget hget'
  exact htarget location hlocate hother

include hlinks

theorem read_eq_ok_iff {content : ByteArray} :
    after.read path = .ok content ↔ before.read path = .ok content := by
  rw [FileStore.read_eq_ok_iff, FileStore.read_eq_ok_iff]
  refine exists_congr fun location => exists_congr fun id => ?_
  rw [h.find_file_iff htarget hlinks]
  refine and_congr_right fun hfind => ?_
  rw [mayRead, mayRead, h.isPrivileged_eq, h.file_eq_of_find hsingle htarget hfind]

theorem content?_eq_some_iff {content : ByteArray} :
    after.content? path = some content ↔ before.content? path = some content := by
  rw [FileStore.content?_eq_some_iff, FileStore.content?_eq_some_iff]
  refine exists_congr fun location => exists_congr fun id => ?_
  rw [h.find_file_iff htarget hlinks]
  refine and_congr_right fun hfind => ?_
  rw [h.file_eq_of_find hsingle htarget hfind]

end singleNames

end WrittenAt

/-! ## One content that is put somewhere -/

theorem newAt_addFile (hget : store.get? location = none) (hadd : store.mayAdd location = true)
    (content : ByteArray) :
    NewAt store (store.addFile location content) location store.newNumber where
  get?_before := hget
  mayAdd := hadd
  get?_after := by rw [get?_addFile (ne_nil_of_get?_eq_none hget), if_pos rfl]
  access_eq := by rw [file_addFile, if_pos rfl]
  nameless _ hother := Nat.lt_irrefl _ (lt_newNumber hother)
  single other hother := by
    rw [get?_addFile (ne_nil_of_get?_eq_none hget)] at hother
    split at hother
    · assumption
    · exact absurd (lt_newNumber hother) (Nat.lt_irrefl _)

theorem writtenAt_addFile (hget : store.get? location = none)
    (hadd : store.mayAdd location = true) (content : ByteArray) :
    WrittenAt (· = location) store (store.addFile location content) where
  workingDirectory_eq := rfl
  newAccess_eq := rfl
  isPrivileged_eq := rfl
  get?_cases other := by
    by_cases hother : other = location
    · rw [hother]
      exact .inr ⟨rfl, _, newAt_addFile hget hadd content⟩
    · rw [get?_addFile (ne_nil_of_get?_eq_none hget), if_neg hother]
      exact .inl rfl
  file_cases id := by
    rw [file_addFile]
    split
    · rename_i hid
      rw [hid]
      exact .inr ⟨location, rfl, (newAt_addFile hget hadd content).get?_after⟩
    · exact .inl rfl
  access_eq other id hother := by
    rw [file_addFile, if_neg (Nat.ne_of_lt (lt_newNumber hother))]

theorem writtenAt_setContent (hget : store.get? location = some (.file id))
    (content : ByteArray) : WrittenAt (· = location) store (store.setContent id content) where
  workingDirectory_eq := rfl
  newAccess_eq := rfl
  isPrivileged_eq := rfl
  get?_cases _ := .inl rfl
  file_cases other := by
    rw [file_setContent]
    split
    · rename_i hother
      rw [hother]
      exact .inr ⟨location, rfl, hget⟩
    · exact .inl rfl
  access_eq _ other _ := by
    rw [file_setContent]
    split
    · rename_i hother
      rw [hother]
    · rfl

/-- Putting a content somewhere writes there alone. -/
theorem writtenAt_put (h : store.obstacle? location = none) (content : ByteArray) :
    WrittenAt (· = location) store (store.put location content) := by
  rcases obstacle?_eq_none_iff.mp h with ⟨id, hget, -⟩ | ⟨hget, hadd⟩
  · simp only [put, hget]
    exact writtenAt_setContent hget content
  · simp only [put, hget]
    exact writtenAt_addFile hget hadd content

/-- A content that was put somewhere stands there. -/
theorem exists_file_put (h : store.obstacle? location = none) (content : ByteArray) :
    ∃ id, (store.put location content).get? location = some (.file id) ∧
      ((store.put location content).file id).content = content := by
  rcases obstacle?_eq_none_iff.mp h with ⟨id, hget, -⟩ | ⟨hget, hadd⟩
  · simp only [put, hget]
    exact ⟨id, hget, by rw [file_setContent, if_pos rfl]⟩
  · simp only [put, hget]
    exact ⟨_, (newAt_addFile hget hadd content).get?_after, by rw [file_addFile, if_pos rfl]⟩

theorem writtenAt_of_write {content : ByteArray} (h : store.write path content = .ok after) :
    WrittenAt (fun location => store.locate .create path = .ok location) store after := by
  obtain ⟨location, hlocate, hobstacle, rfl⟩ := write_eq_ok_iff.mp h
  refine (writtenAt_put hobstacle content).mono ?_
  rintro _ rfl
  exact hlocate

/-- The file at a path that was written holds what was written. -/
theorem content?_of_write (hlinks : store.NoLinks) {content : ByteArray}
    (h : store.write path content = .ok after) : after.content? path = some content := by
  have hwritten := writtenAt_of_write h
  obtain ⟨location, hlocate, hobstacle, rfl⟩ := write_eq_ok_iff.mp h
  obtain ⟨id, hget, hcontent⟩ := exists_file_put hobstacle content
  have hfind : (store.put location content).find path = .ok (location, .file id) :=
    find_eq_ok_iff.mpr
      ⟨(hwritten.locate_eq_ok_iff hlinks).mpr (locate_look_of_create hlocate), hget⟩
  rw [content?_of_find hfind, hcontent]

end SyntaxForest.FileStore
