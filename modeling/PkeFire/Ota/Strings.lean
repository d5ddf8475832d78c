import PkeFire.Config.Strings
import PkeFire.NbIot.Types

/-! The strings that `ota_task` puts together and hands over, in buffers of a fixed size. -/

namespace PkeFire

/-- The string that `snprintf` leaves in a buffer: one byte is kept for the terminator. -/
def snprintf (size : Nat) (text : List UInt8) : List UInt8 :=
  text.take (size - 1)

/-- The string at `config.update_uri`, which is read up to a zero wherever that is. -/
def Config.updateUri (config : Config) : List UInt8 :=
  cString (config.toList.drop Field.updateUri.offset)

/-- What `ota_task` meets in the world around it. -/
structure OtaWorld where
  /-- `webclient_get_file`: the content of the file that a URL leads to, unless it fails. -/
  getFile : List UInt8 → Option (List UInt8)
  /-- Whether `open` and `read` succeed on the file. -/
  opens : Bool
  reads : Bool
  /-- `cJSON_Parse` on the characters of a string. -/
  parse : List UInt8 → Option Json
  /-- Whether a download completes. -/
  completes : Bool

/-- A call by which `ota_task` hands over a string. -/
inductive OtaCall where
  /-- `webclient_get_file`. -/
  | getFile (uri : List UInt8)
  /-- `cJSON_Parse`, on the whole buffer. -/
  | parse (buf : List UInt8)
  /-- `http_ota_fw_download`. -/
  | download (uri : List UInt8)
  deriving DecidableEq, Repr

/-- What `read` leaves in the cleared buffer of a hundred bytes, unless the file is empty or cannot be opened. -/
def OtaWorld.read (world : OtaWorld) (content : List UInt8) : Option (List UInt8) :=
  if world.opens then
    let bytes := if world.reads then content.take 100 else []
    -- A read that fails returns a size that is not zero either.
    if world.reads && bytes.isEmpty then none else some (bytes ++ List.replicate (100 - bytes.length) 0)
  else none

/-- `ota_task` from `cJSON_Parse` on; without a state when it reads behind its buffer or follows a null pointer. -/
def otaManifest (compileTime : UInt32) (world : OtaWorld) (s : OtaState) (buf : List UInt8) :
    List OtaCall × Option OtaState :=
  if 0 ∈ buf then
    let check : OtaCheck := ⟨world.parse (cString buf), world.completes⟩
    match otaFile compileTime s check.root with
    | none => ([], some (otaTask compileTime s check).1)
    | some none => ([], none)
    | some (some file) =>
      ([.download (snprintf 100 (s.config.updateUri ++ ascii "/" ++ file))], some (otaTask compileTime s check).1)
  else ([], none)

/-- `ota_task` with its strings: the calls that hand them over, and the state behind it. -/
def otaRun (compileTime : UInt32) (world : OtaWorld) (s : OtaState) : List OtaCall × Option OtaState :=
  let verUri := snprintf 50 (s.config.updateUri ++ ascii "/ver.json")
  match (world.getFile verUri).bind world.read with
  | none => ([.getFile verUri], some s)
  | some buf =>
    let (calls, next) := otaManifest compileTime world s buf
    (.getFile verUri :: .parse buf :: calls, next)

/-- The file that a manifest names. -/
def fileName (root : Json) : Option (List UInt8) :=
  (root "file").bind (·.valuestring)

/-- The URL of the manifest. -/
def OtaState.manifestUri (s : OtaState) : List UInt8 :=
  s.config.updateUri ++ ascii "/ver.json"

/-- The buffer that the run gives to `cJSON_Parse`, if it comes that far. -/
def OtaWorld.buffer (world : OtaWorld) (s : OtaState) : Option (List UInt8) :=
  (world.getFile (snprintf 50 s.manifestUri)).bind world.read

/-- The configured URL ends within its member, and takes at most 99 characters with the file that the manifest names. -/
structure Addressable (world : OtaWorld) (s : OtaState) : Prop where
  uri : s.config.updateUri.length < Field.updateUri.size
  /-- Only the manifest that this run parses is asked, and only if its text ends within the buffer. -/
  file : ∀ buf root file, world.buffer s = some buf → 0 ∈ buf → world.parse (cString buf) = some root →
    fileName root = some file → (s.config.updateUri ++ ascii "/" ++ file).length ≤ 99

/-- Every string is handed over as it is meant. -/
structure ExactStrings (compileTime : UInt32) (world : OtaWorld) (s : OtaState) : Prop where
  manifest : ∀ uri, .getFile uri ∈ (otaRun compileTime world s).1 → uri = s.manifestUri
  /-- The manifest ends within the buffer, and consists of bytes of the file. -/
  text : ∀ buf, .parse buf ∈ (otaRun compileTime world s).1 →
    0 ∈ buf ∧ ∃ content, world.getFile s.manifestUri = some content ∧ cString buf <+: content
  firmware : ∀ uri, .download uri ∈ (otaRun compileTime world s).1 →
    ∃ buf root file, .parse buf ∈ (otaRun compileTime world s).1 ∧ world.parse (cString buf) = some root ∧
      fileName root = some file ∧ uri = s.config.updateUri ++ ascii "/" ++ file

/-- However long the URL and the manifest are, every string is handed over as it is meant. -/
def OtaStringsExact : Prop :=
  ∀ compileTime world s, Addressable world s → ExactStrings compileTime world s

/-- A file that is read into the buffer has a zero there: behind its end, or among its own bytes. -/
def Terminates (world : OtaWorld) (content : List UInt8) : Prop :=
  world.opens = true → world.reads = true → content.length < 100 ∨ 0 ∈ content.take 100

section

variable {compileTime : UInt32} {world : OtaWorld} {s : OtaState} {uri buf content : List UInt8}

/-- The URL that a command has copied is the one that is read, as long as it stays within the configuration. -/
theorem updateUri_copyAll {config : Config} {text : List UInt8}
    (fits : Field.updateUri.offset + ((cString text).length + 1) ≤ configSize) :
    ((Update.copyAll Field.updateUri text).apply config).updateUri = cString text := by
  have length : (cString text ++ [0]).length = (cString text).length + 1 := List.length_append
  have read : slice (patch config Field.updateUri.offset (cString text ++ [0])) Field.updateUri.offset
      (cString text ++ [0]).length = cString text ++ [0] := slice_patch_same config (length.symm ▸ fits)
  rw [slice] at read
  -- The terminator has been copied together with the text.
  rw [Config.updateUri, ← List.take_append_drop (cString text ++ [0]).length (List.drop _ _)]
  rw [Update.apply, Update.field, Update.bytes, read, List.append_assoc]
  exact cString_append_zero (zero_notMem_cString text) _

/-- A string that fits into a buffer is written as a whole. -/
theorem snprintf_of_lt {size : Nat} {text : List UInt8} (fits : text.length < size) : snprintf size text = text :=
  List.take_of_length_le (by omega)

/-- A string that does not fit is cut off. -/
theorem snprintf_ne {size : Nat} {text : List UInt8} (long : size ≤ text.length) (positive : 0 < size) :
    snprintf size text ≠ text := by
  intro same
  have length := congrArg List.length same
  rw [snprintf, List.length_take] at length
  omega

/-- The only file that is fetched is the manifest. -/
theorem mem_getFile : .getFile uri ∈ (otaRun compileTime world s).1 ↔ uri = snprintf 50 s.manifestUri := by
  rw [otaRun]
  split
  · simp [OtaState.manifestUri]
  · -- Behind it, nothing else is fetched.
    simp only [otaManifest, OtaState.manifestUri]
    split
    · split <;> simp
    · simp

/-- What is parsed is what has been read from the manifest. -/
theorem mem_parse : .parse buf ∈ (otaRun compileTime world s).1 ↔ world.buffer s = some buf := by
  rw [otaRun, OtaWorld.buffer]
  split
  · -- Without a manifest, nothing is parsed.
    rename_i none
    simp [OtaState.manifestUri, none]
  · -- What comes behind the parser parses nothing more.
    rename_i read found
    rw [OtaState.manifestUri, found, Option.some.injEq]
    simp only [otaManifest]
    split
    · split <;> simp [eq_comm]
    · simp [eq_comm]

/-- A firmware is downloaded if the manifest that has been parsed names it. -/
theorem mem_download (downloads : .download uri ∈ (otaRun compileTime world s).1) :
    ∃ buf root file, .parse buf ∈ (otaRun compileTime world s).1 ∧ world.parse (cString buf) = some root ∧
      fileName root = some file ∧ uri = snprintf 100 (s.config.updateUri ++ ascii "/" ++ file) := by
  have parsed (buf : List UInt8) : .parse buf ∈ (otaRun compileTime world s).1 ↔ _ := mem_parse
  simp only [otaRun] at downloads
  split at downloads
  · simp at downloads
  · rename_i buf found
    simp only [otaManifest] at downloads
    split at downloads
    · split at downloads
      · -- The manifest asks for no download.
        simp at downloads
      · -- The name of the file is no string.
        simp at downloads
      · rename_i file named
        -- The name is the one in the manifest, whether or not its version has been looked at.
        obtain ⟨root, made, newer⟩ := Option.bind_eq_some_iff.mp named
        refine ⟨buf, root, file, (parsed buf).mpr found, made, ?_, by simpa using downloads⟩
        split at newer
        · obtain ⟨item, member, string⟩ := Option.map_eq_some_iff.mp newer
          rw [fileName, member, Option.bind_some, string]
        · cases newer
    · simp at downloads

/-- The bytes in the buffer, and the zeros behind them. -/
theorem read_eq_some (read : world.read content = some buf) : world.opens = true ∧
    ∃ bytes, bytes = (if world.reads then content.take 100 else []) ∧
      buf = bytes ++ List.replicate (100 - bytes.length) 0 := by
  rw [OtaWorld.read, Option.ite_none_right_eq_some] at read
  obtain ⟨opens, read⟩ := read
  -- An empty file leaves nothing to parse.
  obtain ⟨_, same⟩ := Option.ite_none_left_eq_some.mp read
  exact ⟨opens, _, rfl, (Option.some.inj same).symm⟩

/-- The buffer is terminated exactly if the file leaves it so. -/
theorem zero_mem_read (read : world.read content = some buf) : 0 ∈ buf ↔ Terminates world content := by
  obtain ⟨opens, bytes, rfl, rfl⟩ := read_eq_some read
  simp only [Terminates, opens, true_implies, List.mem_append, List.mem_replicate]
  cases world.reads with
  | false => simp
  | true =>
    -- There is room for a zero behind the file unless it fills the buffer.
    simp only [if_true, true_implies, List.length_take, and_true]
    rw [or_comm]
    refine or_congr_left ?_
    omega

/-- What is read as a string from the buffer comes from the file. -/
theorem prefix_read (read : world.read content = some buf) : cString buf <+: content := by
  obtain ⟨_, bytes, same, rfl⟩ := read_eq_some read
  have whole : bytes <+: content := by
    rw [same]
    split
    · exact List.take_prefix _ _
    · exact List.nil_prefix
  refine List.IsPrefix.trans ?_ whole
  -- The string ends among the bytes of the file, or in front of the first zero behind them.
  rw [cString, List.takeWhile_append]
  split
  · rw [List.takeWhile_replicate]
    simp
  · exact List.takeWhile_prefix _

/-- A file that can be opened and read is parsed unless it is empty. -/
theorem exists_read (opens : world.opens = true) (reads : world.reads = true) (nonempty : content ≠ []) :
    ∃ buf, world.read content = some buf := by
  refine ⟨content.take 100 ++ List.replicate (100 - (content.take 100).length) 0, ?_⟩
  -- Its size is not zero.
  simp only [OtaWorld.read, opens, reads, if_true, Bool.true_and]
  rw [if_neg (by simpa using nonempty)]

/-- The manifest is fetched from its own URL exactly if that fits into fifty bytes. -/
theorem snprintf_manifestUri : snprintf 50 s.manifestUri = s.manifestUri ↔ s.config.updateUri.length ≤ 40 := by
  have length : s.manifestUri.length = s.config.updateUri.length + 9 := List.length_append
  constructor
  · intro same
    by_contra long
    -- The URL of the manifest has nine characters more, and its terminator one.
    exact snprintf_ne (by omega) (by decide) same
  · intro short
    exact snprintf_of_lt (by omega)

/-- A run of the task that comes to its end is a step, which downloads a version if it hands over a URL for it. -/
theorem otaRun_step {next : OtaState} (ends : (otaRun compileTime world s).2 = some next) :
    ∃ check, otaStep compileTime s check = some next ∧
      ((otaTask compileTime s check).2.isSome ↔ ∃ uri, .download uri ∈ (otaRun compileTime world s).1) := by
  simp only [otaRun] at ends ⊢
  split at ends
  · -- Without a manifest, nothing happens.
    refine ⟨⟨none, false⟩, ends, ?_⟩
    simp [otaTask]
  · rename_i buf _
    let check : OtaCheck := ⟨world.parse (cString buf), world.completes⟩
    refine ⟨check, ?_⟩
    rw [← isSome_otaFile]
    simp only [otaManifest] at ends ⊢
    split at ends
    · rename_i terminated
      split at ends
      · -- The manifest asks for no download.
        rename_i named
        exact ⟨ends, by simp [check, named, terminated]⟩
      · cases ends
      · -- The download that is started is the one whose URL is handed over.
        rename_i named
        exact ⟨ends, by simp [check, named, terminated]⟩
    · cases ends

end

/-- Every string is handed over as it is meant exactly if the URL leaves room and the manifest leaves a zero. -/
theorem exactStrings_iff (compileTime : UInt32) (world : OtaWorld) (s : OtaState) (addressable : Addressable world s) :
    ExactStrings compileTime world s ↔ s.config.updateUri.length ≤ 40 ∧
      ∀ content, world.getFile s.manifestUri = some content → Terminates world content := by
  constructor
  · intro exactly
    have same := exactly.manifest _ (mem_getFile.mpr rfl)
    refine ⟨snprintf_manifestUri.mp same, fun content fetched opens reads => ?_⟩
    by_cases empty : content = []
    · -- An empty file is shorter than the buffer.
      simp [empty]
    · -- The file is read, so that the buffer is parsed.
      obtain ⟨buf, read⟩ := exists_read opens reads empty
      have parsed : .parse buf ∈ (otaRun compileTime world s).1 :=
        mem_parse.mpr (by rw [OtaWorld.buffer, same, fetched, Option.bind_some, read])
      exact (zero_mem_read read).mp (exactly.text buf parsed).1 opens reads
  · rintro ⟨short, terminates⟩
    have same := snprintf_manifestUri.mpr short
    -- Every manifest that is parsed has come from the URL that was meant, and leaves a zero in the buffer.
    have text : ∀ buf, .parse buf ∈ (otaRun compileTime world s).1 →
        0 ∈ buf ∧ ∃ content, world.getFile s.manifestUri = some content ∧ cString buf <+: content := by
      intro buf parsed
      rw [mem_parse, OtaWorld.buffer, same, Option.bind_eq_some_iff] at parsed
      obtain ⟨content, fetched, read⟩ := parsed
      exact ⟨(zero_mem_read read).mpr (terminates content fetched), content, fetched, prefix_read read⟩
    refine ⟨fun uri fetched => (mem_getFile.mp fetched).trans same, text, fun uri downloads => ?_⟩
    -- The URL of the firmware that the parsed manifest names fits by assumption.
    obtain ⟨buf, root, file, parsed, made, named, rfl⟩ := mem_download downloads
    have fits := addressable.file buf root file (mem_parse.mp parsed) (text buf parsed).1 made named
    exact ⟨buf, root, file, parsed, made, named, snprintf_of_lt (by omega)⟩

/-- The state after the command that sets the URL, from a cleared configuration. -/
def uriState (uri : String) : OtaState :=
  ⟨applyAll (configSetUpdateUri [ascii "config_set_update_uri", ascii uri]) zeroConfig, 0⟩

/-- The command sets the URL. -/
theorem updateUri_uriState {uri : String} (fits : (cString (ascii uri)).length < Field.updateUri.size) :
    (uriState uri).config.updateUri = cString (ascii uri) := by
  have within : Field.updateUri.offset + ((cString (ascii uri)).length + 1) ≤ configSize := by
    have inside : Field.updateUri.offset + Field.updateUri.size ≤ configSize := by decide
    omega
  -- The copy is the only statement of the command.
  exact updateUri_copyAll within

/-- A manifest of a version that is newer than the program of the repository. -/
def versionText : List UInt8 :=
  ascii "\x7b\"ver\":2021050199,\"file\":\"pke_fire.rbl\"\x7d"

/-- The two members of that manifest. -/
def versionRoot : Json := fun name =>
  if name = "ver" then some ⟨2021050199, none⟩
  else if name = "file" then some ⟨0, some (ascii "pke_fire.rbl")⟩
  else none

/-- A world in which every URL leads to this manifest, which is the only text that is taken apart. -/
def oneVersion : OtaWorld where
  getFile := fun _ => some versionText
  opens := true
  reads := true
  parse := fun text => if text = versionText then some versionRoot else none
  completes := true

/-- A URL that leaves room for the name of the only file is within the bounds. -/
theorem addressable_oneVersion {uri : String} (fits : (cString (ascii uri)).length < Field.updateUri.size) :
    Addressable oneVersion (uriState uri) := by
  have same := updateUri_uriState fits
  refine ⟨same ▸ fits, fun buf root file _ _ made named => ?_⟩
  -- Whatever is parsed is the one manifest.
  obtain ⟨_, made⟩ := Option.ite_none_right_eq_some.mp made
  cases Option.some.inj made
  cases Option.some.inj named
  -- The name and the slash in front of it have thirteen characters.
  have name : (ascii "/" ++ ascii "pke_fire.rbl").length = 13 := by decide +kernel
  have bound : (cString (ascii uri)).length < 50 := fits
  rw [List.append_assoc, List.length_append, name, same]
  omega

/-- With a short URL and a short manifest, every string is handed over as it is meant. -/
theorem exactStrings_iff_default :
    ExactStrings 2021041599 oneVersion (uriState "http://8.129.145.22:8080/pke_fire") := by
  have fits : (cString (ascii "http://8.129.145.22:8080/pke_fire")).length < Field.updateUri.size := by
    decide +kernel
  refine (exactStrings_iff 2021041599 oneVersion _ (addressable_oneVersion fits)).mpr ⟨?_, ?_⟩
  · rw [updateUri_uriState fits]
    decide +kernel
  · -- The manifest has fewer than a hundred characters.
    intro content fetched _ _
    cases Option.some.inj fetched
    exact Or.inl (by decide +kernel)

/-- A URL of 41 characters is cut off in front of the last letter of its manifest. -/
theorem otaStringsExact_fails : ¬ OtaStringsExact := by
  intro exactly
  have fits : (cString (ascii "http://8.129.145.22:8080/firmware/release")).length < Field.updateUri.size := by
    decide +kernel
  have same := (exactly 2021041599 oneVersion _ (addressable_oneVersion fits)).manifest _ (mem_getFile.mpr rfl)
  have short := snprintf_manifestUri.mp same
  rw [updateUri_uriState fits] at short
  exact absurd short (by decide +kernel)

end PkeFire
