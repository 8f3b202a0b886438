import ShapingTables.Disk

/-! What creating directories and writing files leaves as it was, and that files of
different names in one directory lie at different places. -/
namespace ShapingTables

namespace FilePath

/-- A single part of a path that leads one level down. -/
structure IsName (name : String) : Prop where
  slashFree : '/' ∉ name.toList
  nonempty : name ≠ ""
  ne_dot : name ≠ "."
  ne_twoDots : name ≠ ".."

theorem IsName.splitWhere {name : String} (isName : IsName name) :
    Text.splitWhere (· == '/') name.toList = (name.toList, []) := by
  refine Text.splitWhere_of_forall_not fun c mem => ?_
  rw [beq_eq_false_iff_ne]
  rintro rfl
  exact isName.slashFree mem

/-- A name that is joined to a directory is the last part of the path. -/
theorem parts_join {name : String} (isName : IsName name) (directory : String) :
    ∃ front, parts (join directory name) = front ++ [name] := by
  have behindSlash (front : List Char) (path : String)
      (spelled : path.toList = front ++ '/' :: name.toList) :
      ∃ above, parts path = above ++ [name] := by
    rw [parts, spelled, Text.splitWhere_append (· == '/') (beq_self_eq_true '/'),
      isName.splitWhere]
    rcases Text.splitWhere (· == '/') front with ⟨field, fields⟩
    exact ⟨(field :: fields).map String.ofList, by simp⟩
  have relative : name.toList.head? ≠ some '/' :=
    fun head => isName.slashFree (List.mem_of_head? head)
  unfold join
  split
  · contradiction
  · exact ⟨[], by simp [parts, isName.splitWhere]⟩
  · next ends _ =>
    obtain ⟨front, ends⟩ := List.getLast?_eq_some_iff.mp ends
    exact behindSlash front _ (by simp [ends])
  · exact behindSlash directory.toList _ (by simp)

end FilePath

namespace Disk

variable {disk after : Disk} {place reached : List String} {path name text : String}

theorem walk_cons_eq_ok_iff {part : String} {parts : List String} :
    disk.walk place (part :: parts) = .ok reached ↔ disk.entryAt place = some .directory ∧
      part.utf8ByteSize ≤ 255 ∧ disk.walk (next place part) parts = .ok reached := by
  simp only [walk, requireDirectory]
  rcases standing : disk.entryAt place with _ | (bytes | _)
  · simp
  · simp
  · by_cases tooLong : 255 < part.utf8ByteSize
    · simp [tooLong, Nat.not_le_of_gt tooLong]
    · simp [tooLong, Nat.le_of_not_lt tooLong]

theorem locate_eq_ok_iff :
    disk.locate path = .ok place ↔ path ≠ "" ∧ FilePath.hasNul path = false ∧
      path.utf8ByteSize ≤ 4095 ∧
      disk.walk (disk.start path) (FilePath.parts path) = .ok place := by
  unfold locate follow
  by_cases empty : path = ""
  · simp [empty]
  · by_cases nul : FilePath.hasNul path = true
    · simp [nul, empty]
    · by_cases tooLong : 4095 < path.utf8ByteSize
      · simp [nul, empty, tooLong, Nat.not_le_of_gt tooLong]
      · simp [nul, empty, tooLong, Nat.le_of_not_lt tooLong]

theorem walk_append_part {parts : List String} {part : String}
    (walked : disk.walk place (parts ++ [part]) = .ok reached) :
    ∃ parent, reached = next parent part := by
  induction parts generalizing place with
  | nil =>
    obtain ⟨_, _, walked⟩ := walk_cons_eq_ok_iff.mp walked
    exact ⟨place, (Except.ok.inj walked).symm⟩
  | cons first parts ih =>
    obtain ⟨_, _, walked⟩ := walk_cons_eq_ok_iff.mp walked
    exact ih walked

theorem locate_join (isName : FilePath.IsName name) {directory : String}
    (located : disk.locate (FilePath.join directory name) = .ok place) :
    place.getLast? = some name := by
  obtain ⟨front, ends⟩ := FilePath.parts_join isName directory
  obtain ⟨_, _, _, walked⟩ := locate_eq_ok_iff.mp located
  rw [ends] at walked
  obtain ⟨parent, rfl⟩ := walk_append_part walked
  simp [next, isName.nonempty, isName.ne_dot, isName.ne_twoDots]

/-- Names that differ are names of different places. -/
theorem name_unique {candidate directory : String} (isName : FilePath.IsName name)
    (isCandidate : FilePath.IsName candidate)
    (located : disk.locate (FilePath.join directory name) = .ok place)
    (foundThere : disk.locate (FilePath.join directory candidate) = .ok place) :
    name = candidate := by
  have last := locate_join isName located
  rw [locate_join isCandidate foundThere] at last
  exact (Option.some.inj last).symm

/-- Every directory is still one, so that a path leads where it led before. -/
structure KeepsDirectories (disk after : Disk) : Prop where
  workingDirectory : after.workingDirectory = disk.workingDirectory
  directory : ∀ place, disk.entryAt place = some .directory →
    after.entryAt place = some .directory

namespace KeepsDirectories

theorem refl (disk : Disk) : KeepsDirectories disk disk := ⟨rfl, fun _ standing => standing⟩

theorem trans {last : Disk} (first : KeepsDirectories disk after)
    (second : KeepsDirectories after last) : KeepsDirectories disk last where
  workingDirectory := second.workingDirectory.trans first.workingDirectory
  directory place standing := second.directory place (first.directory place standing)

theorem walk (keeps : KeepsDirectories disk after) {parts : List String}
    (walked : disk.walk place parts = .ok reached) : after.walk place parts = .ok reached := by
  induction parts generalizing place with
  | nil => exact walked
  | cons part parts ih =>
    obtain ⟨directory, short, walked⟩ := walk_cons_eq_ok_iff.mp walked
    exact walk_cons_eq_ok_iff.mpr ⟨keeps.directory place directory, short, ih walked⟩

theorem locate (keeps : KeepsDirectories disk after) (located : disk.locate path = .ok place) :
    after.locate path = .ok place := by
  obtain ⟨nonempty, noNul, short, walked⟩ := locate_eq_ok_iff.mp located
  have start : after.start path = disk.start path := by simp [start, keeps.workingDirectory]
  refine locate_eq_ok_iff.mpr ⟨nonempty, noNul, short, ?_⟩
  rw [start]
  exact keeps.walk walked

end KeepsDirectories

@[simp] theorem put_entryAt_self (entry : DiskEntry) :
    (disk.put place entry).entryAt place = some entry := by
  simp [put]

theorem put_entryAt_of_ne {elsewhere : List String} (differ : elsewhere ≠ place)
    (entry : DiskEntry) : (disk.put place entry).entryAt elsewhere = disk.entryAt elsewhere := by
  simp [put, differ]

theorem keepsDirectories_put_file (noDirectory : disk.entryAt place ≠ some .directory)
    (bytes : ByteArray) : KeepsDirectories disk (disk.put place (.file bytes)) where
  workingDirectory := rfl
  directory elsewhere standing := by
    rw [put_entryAt_of_ne _ _, standing]
    rintro rfl
    exact noDirectory standing

/-- A file can be written at the path: it leads somewhere, and to no directory. -/
def Writable (disk : Disk) (path : String) : Prop :=
  ∃ place, disk.locate path = .ok place ∧ disk.entryAt place ≠ some .directory

theorem writeText_eq_ok (located : disk.locate path = .ok place)
    (noDirectory : disk.entryAt place ≠ some .directory) (text : String) :
    disk.writeText path text = .ok (disk.put place (.file text.toUTF8)) := by
  unfold writeText
  simp only [located]

theorem Writable.put_file (writable : disk.Writable path)
    (noDirectory : disk.entryAt place ≠ some .directory) (bytes : ByteArray) :
    (disk.put place (.file bytes)).Writable path := by
  obtain ⟨target, located, free⟩ := writable
  refine ⟨target, (keepsDirectories_put_file noDirectory bytes).locate located, ?_⟩
  by_cases same : target = place
  · simp [same]
  · rwa [put_entryAt_of_ne same]

/-- What can be written at all can be written with any text. -/
theorem writable_iff : disk.Writable path ↔ (disk.writeText path text).isOk = true := by
  unfold Writable writeText
  rcases located : disk.locate path with _ | place
  · simp [Except.isOk, Except.toBool]
  · rcases standing : disk.entryAt place with _ | (bytes | _) <;>
      simp [standing, Except.isOk, Except.toBool]

theorem readText_of_file (located : disk.locate path = .ok place)
    (stored : disk.entryAt place = some (.file text.toUTF8)) : disk.readText path = .ok text := by
  have decoded : String.fromUTF8? text.toUTF8 = some text := by
    simp only [String.fromUTF8?, String.toUTF8_eq_toByteArray, text.isValidUTF8, ↓reduceDIte]
    rfl
  simp only [readText, located, stored, decoded]

/-- A directory is created only where nothing stands. -/
theorem createDirectory_entryAt {entry : DiskEntry}
    (created : disk.createDirectory path = .ok after) (standing : disk.entryAt place = some entry) :
    after.entryAt place = some entry := by
  simp only [createDirectory] at created
  split at created
  · cases created
  · next target _ =>
    split at created
    · cases created
      exact standing
    · cases created
    · next free =>
      cases created
      rwa [put_entryAt_of_ne]
      rintro rfl
      simp [free] at standing

/-- Whatever comes of the action, what stood on the disk stands there as it was. -/
def KeepsEntries (action : StateM Disk α) : Prop :=
  ∀ disk : Disk, ∀ place entry, disk.entryAt place = some entry →
    (action.run disk).2.entryAt place = some entry

namespace KeepsEntries

theorem pure (value : α) : KeepsEntries (Pure.pure value : StateM Disk α) :=
  fun _ _ _ standing => standing

theorem bind {action : StateM Disk α} {continuation : α → StateM Disk β}
    (first : KeepsEntries action) (second : ∀ value, KeepsEntries (continuation value)) :
    KeepsEntries (action >>= continuation) :=
  fun disk place entry standing =>
    second (action.run disk).1 (action.run disk).2 place entry (first disk place entry standing)

theorem createDirectory (path : String) :
    KeepsEntries (FileSystem.createDirectory path : StateM Disk (Except FileFault Unit)) := by
  intro disk place entry standing
  change (attempt (·.createDirectory path) disk).2.entryAt place = some entry
  unfold attempt
  split
  · next created => exact createDirectory_entryAt created standing
  · exact standing

theorem createBelow (path : String) (above : List String) :
    KeepsEntries (FileSystem.createBelow path above : StateM Disk (Except FileFault Unit)) := by
  induction above generalizing path with
  | nil => exact createDirectory path
  | cons parent above ih =>
    refine (createDirectory path).bind fun created => ?_
    split
    · refine (ih parent).bind fun made => ?_
      split
      · exact pure _
      · exact createDirectory path
    · exact pure _

theorem createDirectories (path : String) :
    KeepsEntries (FileSystem.createDirectories path : StateM Disk (Except FileFault Unit)) := by
  unfold FileSystem.createDirectories
  split
  · exact pure _
  · exact createBelow path _

end KeepsEntries

end Disk

end ShapingTables
