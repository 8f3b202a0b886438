import ShapingTables.CommandLine
import ShapingTables.Proofs.DataLines
import ShapingTables.Proofs.DiskWrites

/-! A run on a disk writes all of its files or, if the configuration cannot be loaded or
one of the builds fails, leaves the disk as it is. -/
namespace ShapingTables

/-- The configuration that is named, as it stands on the disk. -/
def Disk.configOf (disk : Disk) : Option String → Except Fault Config
  | none => .ok .standard
  | some path =>
    match disk.readText path with
    | .ok text => Config.ofText text
    | .error fault => .error (.unreadable path fault)

/-- The data files that a configuration points to, as they stand on the disk. -/
def Disk.sourceOf (disk : Disk) (config : Config) : Source :=
  .ofDirectory config.dataDir config.unicodeVersion fun file =>
    disk.readText (FilePath.join config.dataDir file.path)

variable {disk : Disk} {config : Config}

theorem Disk.run_mapM {action : α → StateM Disk β} {answer : α → β}
    (answers : ∀ a, (action a).run disk = pure (answer a, disk)) (items : List α) :
    (items.mapM action).run disk = pure (items.map answer, disk) := by
  induction items with
  | nil => rfl
  | cons item items ih => simp [answers, ih]

theorem Disk.run_readText (path : String) (disk : Disk) :
    (FileSystem.readText path : StateM Disk (Except FileFault String)).run disk =
      pure (disk.readText path, disk) := rfl

theorem Config.run_load (path : String) (disk : Disk) :
    (Config.load path : StateM Disk (Except Fault Config)).run disk =
      pure (disk.configOf (some path), disk) := by
  simp only [Config.load, Disk.configOf, StateT.run_bind, Disk.run_readText, pure_bind]
  rcases disk.readText path with _ | _ <;> rfl

theorem Source.run_readDirectory (config : Config) (disk : Disk) :
    (Source.readDirectory config.dataDir config.unicodeVersion : StateM Disk Source).run disk =
      pure (disk.sourceOf config, disk) := by
  let text (file : SourceFile) : Except FileFault String :=
    disk.readText (FilePath.join config.dataDir file.path)
  have read (file : SourceFile) :
      (do return (file, ← FileSystem.readText (FilePath.join config.dataDir file.path)) :
        StateM Disk (SourceFile × Except FileFault String)).run disk =
          pure ((file, text file), disk) := by
    simp only [StateT.run_bind, Disk.run_readText, pure_bind, StateT.run_pure, text]
  have found (file : SourceFile) :
      (SourceFile.all.map fun file => (file, text file)).lookup file = some (text file) := by
    cases file <;> rfl
  unfold Source.readDirectory
  rw [StateT.run_bind, Disk.run_mapM read, pure_bind]
  simp only [found, Option.getD_some, StateT.run_pure]
  rfl

namespace CommandLine

/-- What comes of a run on a disk, and the disk after it. -/
def runOn (arguments : List String) (disk : Disk) : Except Failure Unit × Disk :=
  ((run arguments : StateM Disk (Except Failure Unit)).run disk).run

def outputDirectory (arguments : List String) : String := (arguments[1]?).getD "."

/-- The names of the generated files, in the order in which they are written. -/
def outputNames : List String :=
  ["universal_table.rs", "vowel_constraints.rs", "emoji_pictographic.rs"]

theorem isName_of_mem_outputNames {name : String} (mem : name ∈ outputNames) :
    FilePath.IsName name := by
  simp only [outputNames, List.mem_cons, List.not_mem_nil, or_false] at mem
  rcases mem with rfl | rfl | rfl <;> constructor <;> decide

theorem run_loadConfig (named : Option String) (disk : Disk) :
    ∃ context, (loadConfig named : StateM Disk (Except Failure Config)).run disk =
      pure (whileDoing context (disk.configOf named), disk) := by
  cases named with
  | none => exact ⟨"", rfl⟩
  | some path =>
    refine ⟨"loading configuration from " ++ path, ?_⟩
    simp only [loadConfig, StateT.run_bind, Config.run_load, pure_bind]
    rfl

/-- A run that cannot load its configuration does nothing else. -/
theorem runOn_of_config_error {arguments : List String} {fault : Fault}
    (failed : disk.configOf arguments[0]? = .error fault) :
    ∃ failure, runOn arguments disk = (.error failure, disk) := by
  obtain ⟨context, loaded⟩ := run_loadConfig arguments[0]? disk
  rw [failed] at loaded
  refine ⟨⟨context, fault.causes⟩, ?_⟩
  simp only [runOn, run, StateT.run_bind, loaded, pure_bind]
  rfl

/-- The files are there exactly if all three artifacts are. -/
theorem outputs_eq_ok_iff {source : Source} {files : List (String × String)} :
    outputs source config = .ok files ↔ ∃ table matchers pictographic,
      DispatchTable.ofSource source config = .ok table ∧
      ScriptMatchers.ofSource source = .ok matchers ∧
      PictographicSet.ofSource source = .ok pictographic ∧
      files = [("universal_table.rs", (CategoryListing.ofTable table).text),
        ("vowel_constraints.rs", (MatcherListing.ofMatchers matchers).text),
        ("emoji_pictographic.rs", (PictographicListing.ofSet pictographic).text)] := by
  unfold outputs whileDoing
  rcases DispatchTable.ofSource source config with _ | table
  · simp [Except.mapError, bind, Except.bind]
  · rcases ScriptMatchers.ofSource source with _ | matchers
    · simp [Except.mapError, bind, Except.bind]
    · rcases PictographicSet.ofSource source with _ | pictographic
      · simp [Except.mapError, bind, Except.bind]
      · simp [Except.mapError, bind, Except.bind, pure, Except.pure, eq_comm]

/-- One of the artifacts cannot be built. -/
inductive Unbuilt (source : Source) (config : Config) : Prop where
  | table {fault : Fault} (failed : DispatchTable.ofSource source config = .error fault)
  | matchers {fault : Fault} (failed : ScriptMatchers.ofSource source = .error fault)
  | pictographic {fault : Fault} (failed : PictographicSet.ofSource source = .error fault)

theorem Unbuilt.outputs_eq_error {source : Source} (unbuilt : Unbuilt source config) :
    ∃ failure, outputs source config = .error failure := by
  rcases written : outputs source config with failure | files
  · exact ⟨failure, rfl⟩
  · obtain ⟨_, _, _, table, matchers, pictographic, _⟩ := outputs_eq_ok_iff.mp written
    cases unbuilt with
    | table failed => cases failed.symm.trans table
    | matchers failed => cases failed.symm.trans matchers
    | pictographic failed => cases failed.symm.trans pictographic

/-- A run that has no files to write leaves the disk as it is. -/
theorem runOn_of_unbuilt {arguments : List String}
    (loaded : disk.configOf arguments[0]? = .ok config)
    (unbuilt : Unbuilt (disk.sourceOf config) config) :
    ∃ failure, runOn arguments disk = (.error failure, disk) := by
  obtain ⟨context, ran⟩ := run_loadConfig arguments[0]? disk
  obtain ⟨failure, failed⟩ := unbuilt.outputs_eq_error
  rw [loaded] at ran
  refine ⟨failure, ?_⟩
  simp only [runOn, run, StateT.run_bind, ran, pure_bind, whileDoing, Except.mapError,
    Source.run_readDirectory, failed]
  rfl

/-- Files of different names, written one after the other, do not get in each other's way. -/
theorem run_writeAll {directory : String} {files : List (String × String)}
    (names : ∀ file ∈ files, FilePath.IsName file.1) (distinct : (files.map (·.1)).Nodup)
    (writable : ∀ file ∈ files, disk.Writable (FilePath.join directory file.1)) :
    ∃ after, (writeAll directory files : StateM Disk (Except Failure Unit)).run disk =
        pure (.ok (), after) ∧
      disk.KeepsDirectories after ∧
      (∀ file ∈ files, after.readText (FilePath.join directory file.1) = .ok file.2) ∧
      ∀ place, (∀ file ∈ files, disk.locate (FilePath.join directory file.1) ≠ .ok place) →
        after.entryAt place = disk.entryAt place := by
  induction files generalizing disk with
  | nil => exact ⟨disk, rfl, .refl disk, by simp, fun _ _ => rfl⟩
  | cons file rest ih =>
    obtain ⟨name, text⟩ := file
    simp only [List.forall_mem_cons, List.map_cons, List.nodup_cons] at names distinct writable
    obtain ⟨target, located, noDirectory⟩ := writable.1
    have keeps := Disk.keepsDirectories_put_file noDirectory text.toUTF8
    obtain ⟨after, ran, keepsAfter, texts, others⟩ := ih names.2 distinct.2 fun file mem =>
      (writable.2 file mem).put_file noDirectory text.toUTF8
    have wrote : (FileSystem.writeText (FilePath.join directory name) text :
        StateM Disk (Except FileFault Unit)).run disk =
          pure (.ok (), disk.put target (.file text.toUTF8)) := by
      change Disk.attempt (·.writeText (FilePath.join directory name) text) disk = _
      simp only [Disk.attempt, Disk.writeText_eq_ok located noDirectory]
      rfl
    refine ⟨after, ?_, keeps.trans keepsAfter, ?_, ?_⟩
    · simp only [writeAll, StateT.run_bind, wrote, pure_bind, ran]
    · rw [List.forall_mem_cons]
      refine ⟨Disk.readText_of_file ((keeps.trans keepsAfter).locate located) ?_, texts⟩
      rw [others target, Disk.put_entryAt_self]
      intro file mem foundThere
      have same := Disk.name_unique names.1 (names.2 file mem) (keeps.locate located) foundThere
      exact distinct.1 (same ▸ List.mem_map_of_mem mem)
    · intro place elsewhere
      rw [List.forall_mem_cons] at elsewhere
      have differ : place ≠ target := fun same => elsewhere.1 (same ▸ located)
      rw [others place, Disk.put_entryAt_of_ne differ]
      intro file mem foundThere
      -- The path led to the same place before the first file was written.
      obtain ⟨_, locatedFile, _⟩ := writable.2 file mem
      have same := (keeps.locate locatedFile).symm.trans foundThere
      exact elsewhere.2 file mem (locatedFile.trans same)

/-- The output directory can be created, and all generated files can be written into it. -/
def Receives (disk : Disk) (arguments : List String) : Prop :=
  ∃ made, (FileSystem.createDirectories (outputDirectory arguments) :
      StateM Disk (Except FileFault Unit)).run disk = pure (.ok (), made) ∧
    ∀ name ∈ outputNames, made.Writable (FilePath.join (outputDirectory arguments) name)

/-- The files go to the output directory, and elsewhere everything stays as it was. -/
theorem Receives.runOn_eq {arguments : List String} {files : List (String × String)}
    (receives : Receives disk arguments) (loaded : disk.configOf arguments[0]? = .ok config)
    (built : outputs (disk.sourceOf config) config = .ok files) :
    ∃ after, runOn arguments disk = (.ok (), after) ∧
      (∀ file ∈ files,
        after.readText (FilePath.join (outputDirectory arguments) file.1) = .ok file.2) ∧
      ∀ place entry, disk.entryAt place = some entry →
        (∀ name ∈ outputNames,
          after.locate (FilePath.join (outputDirectory arguments) name) ≠ .ok place) →
        after.entryAt place = some entry := by
  obtain ⟨made, created, writable⟩ := receives
  have named : files.map (·.1) = outputNames := by
    obtain ⟨_, _, _, _, _, _, rfl⟩ := outputs_eq_ok_iff.mp built
    rfl
  have listedName {file : String × String} (listed : file ∈ files) : file.1 ∈ outputNames :=
    named ▸ List.mem_map_of_mem listed
  obtain ⟨after, ran, keeps, texts, others⟩ := run_writeAll
    (fun file listed => isName_of_mem_outputNames (listedName listed)) (by rw [named]; decide)
    fun file listed => writable file.1 (listedName listed)
  obtain ⟨context, ranConfig⟩ := run_loadConfig arguments[0]? disk
  rw [loaded] at ranConfig
  refine ⟨after, ?_, texts, ?_⟩
  · unfold outputDirectory at created ran
    simp only [runOn, run, StateT.run_bind, ranConfig, pure_bind, whileDoing, Except.mapError,
      Source.run_readDirectory, built, created, ran]
    rfl
  · intro place entry standing elsewhere
    rw [others place]
    · have kept := Disk.KeepsEntries.createDirectories (outputDirectory arguments) disk place entry
      rw [created] at kept
      exact kept standing
    · intro file listed foundThere
      exact elsewhere file.1 (listedName listed) (keeps.locate foundThere)

/-- A run is all or nothing. Whatever fails before there are texts to write leaves the disk as
it is; otherwise, as far as the output directory permits, each text goes to its file. -/
theorem run_all_or_nothing (arguments : List String) (disk : Disk) :
    ((∃ fault, disk.configOf arguments[0]? = .error fault) ∨
      (∃ config, disk.configOf arguments[0]? = .ok config ∧
        Unbuilt (disk.sourceOf config) config) →
      exitStatus (runOn arguments disk).1 ≠ 0 ∧ (runOn arguments disk).2 = disk) ∧
    ∀ config table matchers pictographic,
      disk.configOf arguments[0]? = .ok config →
      DispatchTable.ofSource (disk.sourceOf config) config = .ok table →
      ScriptMatchers.ofSource (disk.sourceOf config) = .ok matchers →
      PictographicSet.ofSource (disk.sourceOf config) = .ok pictographic →
      Receives disk arguments →
      exitStatus (runOn arguments disk).1 = 0 ∧
      (runOn arguments disk).2.readText
          (FilePath.join (outputDirectory arguments) "universal_table.rs") =
        .ok (CategoryListing.ofTable table).text ∧
      (runOn arguments disk).2.readText
          (FilePath.join (outputDirectory arguments) "vowel_constraints.rs") =
        .ok (MatcherListing.ofMatchers matchers).text ∧
      (runOn arguments disk).2.readText
          (FilePath.join (outputDirectory arguments) "emoji_pictographic.rs") =
        .ok (PictographicListing.ofSet pictographic).text ∧
      ∀ place entry, disk.entryAt place = some entry →
        (∀ name ∈ outputNames, (runOn arguments disk).2.locate
          (FilePath.join (outputDirectory arguments) name) ≠ .ok place) →
        (runOn arguments disk).2.entryAt place = some entry := by
  constructor
  · intro unwritten
    obtain ⟨failure, ran⟩ : ∃ failure, runOn arguments disk = (.error failure, disk) := by
      rcases unwritten with ⟨fault, failed⟩ | ⟨config, loaded, unbuilt⟩
      · exact runOn_of_config_error failed
      · exact runOn_of_unbuilt loaded unbuilt
    rw [ran]
    exact ⟨by simp [exitStatus], rfl⟩
  · intro config table matchers pictographic loaded tableBuilt matchersBuilt pictographicBuilt
      receives
    have built := outputs_eq_ok_iff.mpr
      ⟨table, matchers, pictographic, tableBuilt, matchersBuilt, pictographicBuilt, rfl⟩
    obtain ⟨after, ran, texts, others⟩ := receives.runOn_eq loaded built
    simp only [List.forall_mem_cons, List.not_mem_nil, false_implies, implies_true,
      and_true] at texts
    rw [ran]
    exact ⟨rfl, texts.1, texts.2.1, texts.2.2, others⟩

/-- A configuration, and the data files that it points to. -/
def fewFiles : Disk :=
  [("c.json", "[\"ucd\", \"\", [], [1, 0]]"),
    ("ucd/IndicSyllabicCategory.txt", "0915 ; Consonant\n"),
    ("ucd/IndicPositionalCategory.txt", ""),
    ("ucd/UnicodeData.txt", "0915;LETTER;Lo\n"),
    ("ucd/ArabicShaping.txt", ""),
    ("ucd/Blocks.txt", "0900..097F; Devanagari\n"),
    ("ucd/Scripts.txt", "0900..097F; Devanagari\n"),
    ("ucd/ms-use/IndicSyllabicCategory-Additional.txt", ""),
    ("ucd/ms-use/IndicPositionalCategory-Additional.txt", ""),
    ("ucd/ms-use/IndicShapingInvalidCluster.txt", "0905 0946\n"),
    ("ucd/emoji/emoji-data.txt", "00A9 ; Extended_Pictographic\n")].foldl
    (fun disk (path, text) => disk.populate path (.file text.toUTF8)) (.empty ["work"])

theorem receives_fewFiles : Receives fewFiles ["c.json", "out"] := by
  obtain ⟨_, created, written⟩ :
      ∃ made, ((FileSystem.createDirectories "out" :
        StateM Disk (Except FileFault Unit)).run fewFiles).run.1 = .ok made ∧
        (outputNames.all fun name => (((FileSystem.createDirectories "out" :
          StateM Disk (Except FileFault Unit)).run fewFiles).run.2.writeText
            (FilePath.join "out" name) "").isOk) = true :=
    exists_of_any (by decide +kernel)
  rw [List.all_eq_true] at written
  exact ⟨_, Prod.ext created rfl, fun name mem => Disk.writable_iff.mpr (written name mem)⟩

/-- A configuration that is no JSON text, and one that points to data files. -/
theorem run_all_or_nothing_fewFiles : ∃ fault config table matchers pictographic,
    fewFiles.configOf (some "ucd/Blocks.txt") = .error fault ∧
    (runOn ["ucd/Blocks.txt", "out"] fewFiles).2 = fewFiles ∧
    fewFiles.configOf (some "c.json") = .ok config ∧
    DispatchTable.ofSource (fewFiles.sourceOf config) config = .ok table ∧
    ScriptMatchers.ofSource (fewFiles.sourceOf config) = .ok matchers ∧
    PictographicSet.ofSource (fewFiles.sourceOf config) = .ok pictographic ∧
    Receives fewFiles ["c.json", "out"] ∧
    exitStatus (runOn ["c.json", "out"] fewFiles).1 = 0 ∧
    (runOn ["c.json", "out"] fewFiles).2.readText "out/emoji_pictographic.rs" =
      .ok (PictographicListing.ofSet pictographic).text := by
  obtain ⟨fault, failed⟩ : ∃ fault, fewFiles.configOf (some "ucd/Blocks.txt") = .error fault := by
    rcases loaded : fewFiles.configOf (some "ucd/Blocks.txt") with fault | config
    · exact ⟨fault, rfl⟩
    · have unread : (fewFiles.configOf (some "ucd/Blocks.txt")).toOption = none := by
        decide +kernel
      rw [loaded] at unread
      cases unread
  obtain ⟨config, loaded, built⟩ : ∃ config, fewFiles.configOf (some "c.json") = .ok config ∧
      ((outputs (fewFiles.sourceOf config) config).toOption.any fun _ => true) = true :=
    exists_of_any (by decide +kernel)
  obtain ⟨_, built, _⟩ := exists_of_any built
  obtain ⟨table, matchers, pictographic, tableBuilt, matchersBuilt, pictographicBuilt, _⟩ :=
    outputs_eq_ok_iff.mp built
  obtain ⟨status, _, _, emoji, _⟩ := (run_all_or_nothing ["c.json", "out"] fewFiles).2 config table
    matchers pictographic loaded tableBuilt matchersBuilt pictographicBuilt receives_fewFiles
  obtain ⟨_, unchanged⟩ :=
    (run_all_or_nothing ["ucd/Blocks.txt", "out"] fewFiles).1 (.inl ⟨fault, failed⟩)
  exact ⟨fault, config, table, matchers, pictographic, failed, unchanged, loaded, tableBuilt,
    matchersBuilt, pictographicBuilt, receives_fewFiles, status, emoji⟩

end CommandLine

end ShapingTables
