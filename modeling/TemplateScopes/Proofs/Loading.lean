import TemplateScopes.Proofs.ExitCodes
import TemplateScopes.Proofs.JsonReader

/-!
# Loading a configuration

What comes of the file at a path, whatever its bytes are, and how a run ends
that needs a configuration and cannot load it.

There are three groups.

* Contents.  `Loads` lists what a file may hold and what comes of it, by the
  bytes of texts and the schema of a configuration.  `loads_iff` says that
  loading does just that.
* Runs.  `execute_of_load`: what keeps a configuration from being loaded ends
  the run.
* The whole.  `execute_loads` is the main result.  A file that is not UTF-8
  is reported as no fault of a configuration (`execute_undecodable`).
-/

namespace TemplateScopes

/-! ## Contents -/

/-- Whether the file at a path holds a text. -/
def FileTree.HoldsText (tree : FileTree) (cwd : Place) (path : Path) (t : Text) : Prop :=
  path.toText.nameFault? = none ∧
    ∃ cs, t = Text.ofChars cs ∧ tree.read cwd path = .ok (Text.Utf8.encode cs)

namespace Config

section Contents

variable {levels : Nat} {tree : FileTree} {cwd : Place} {path : Path} {t : Text}
  {r : Except ContextFault Config}

/-- What comes of the file at a path, read by a program that can follow the given
levels of arrays and objects. -/
inductive Loads (levels : Nat) (tree : FileTree) (cwd : Place) (path : Path) :
    Except ContextFault Config → Prop where
  /-- The file system cannot be asked for the path. -/
  | badName {fault : NameFault} (hpath : path.toText.nameFault? = some fault) :
      Loads levels tree cwd path (.error (.badName fault))
  /-- There is no file, or a directory stands there. -/
  | unreadable {reason : PathFault} (hpath : path.toText.nameFault? = none)
      (hread : tree.read cwd path = .error reason) :
      Loads levels tree cwd path (.error (.config (.unreadable path.toText reason)))
  /-- The bytes are those of no characters. -/
  | undecodable {bytes : List UInt8} (hpath : path.toText.nameFault? = none)
      (hread : tree.read cwd path = .ok bytes) (hbytes : ∀ cs, Text.Utf8.encode cs ≠ bytes) :
      Loads levels tree cwd path (.error .undecodable)
  /-- The text is no JSON. -/
  | notJson {t : Text} (ht : tree.HoldsText cwd path t)
      (hread : Json.read levels t = .error .malformed) :
      Loads levels tree cwd path (.error (.config (.notJson path.toText)))
  /-- The text has a whole number with too many digits. -/
  | longNumber {t digits : Text} (ht : tree.HoldsText cwd path t) (hin : digits <:+: t)
      (hdigits : ∀ c ∈ digits, Json.isDigit c = true) (hlong : Json.maxDigits < digits.length)
      (hread : Json.read levels t = .error (.longNumber digits.length)) :
      Loads levels tree cwd path (.error (.longNumber digits.length))
  /-- The text has more brackets, one inside the other, than there are levels. -/
  | tooDeep {t : Text} (ht : tree.HoldsText cwd path t) (hdeep : levels < Json.openings t)
      (hread : Json.read levels t = .error .tooDeep) :
      Loads levels tree cwd path (.error .tooDeep)
  /-- The JSON value is no object, or one that holds no configuration. -/
  | invalid {t : Text} {value : Json} {fault : ConfigFault} (ht : tree.HoldsText cwd path t)
      (hread : Json.read levels t = .ok value)
      (hnot : ∀ members config, value = .obj members → ¬ HeldBy config members)
      (hfault : ofJson value = .error fault) : Loads levels tree cwd path (.error (.config fault))
  /-- The file holds a configuration. -/
  | config {t : Text} {members : OrderedMap Json} {config : Config}
      (ht : tree.HoldsText cwd path t) (hread : Json.read levels t = .ok (.obj members))
      (hheld : config.HeldBy members) : Loads levels tree cwd path (.ok config)

theorem load_of_holdsText (h : tree.HoldsText cwd path t) :
    load levels tree cwd path =
      match Json.read levels t with
      | .error .malformed => .error (.config (.notJson path.toText))
      | .error (.longNumber digits) => .error (.longNumber digits)
      | .error .tooDeep => .error .tooDeep
      | .ok value => (ofJson value).mapError .config := by
  obtain ⟨hpath, cs, rfl, hread⟩ := h
  rcases hjson : Json.read levels (Text.ofChars cs) with (_ | _ | _) | value <;>
    simp only [load, hpath, hread, ofBytes, Text.Utf8.decode?_encode, hjson]

theorem load_of_loads (h : Loads levels tree cwd path r) : load levels tree cwd path = r := by
  cases h with
  | badName hpath => simp only [load, hpath]
  | unreadable hpath hread => simp only [load, hpath, hread]
  | undecodable hpath hread hbytes =>
    have hdecode := Option.eq_none_iff_forall_ne_some.2 fun cs hcs =>
      hbytes cs (Text.Utf8.decode?_eq_some_iff.1 hcs)
    simp only [load, hpath, hread, ofBytes, hdecode]
  | notJson ht hread | longNumber ht _ _ _ hread | tooDeep ht _ hread =>
    rw [load_of_holdsText ht, hread]
  | invalid ht hread _ hfault =>
    rw [load_of_holdsText ht, hread]
    simp only [hfault]
    rfl
  | config ht hread hheld =>
    rw [load_of_holdsText ht, hread]
    simp only [ofJson_obj_eq_ok_iff.2 hheld]
    rfl

/-- Whatever stands at a path, something comes of it. -/
theorem exists_loads (levels : Nat) (tree : FileTree) (cwd : Place) (path : Path) :
    ∃ r, Loads levels tree cwd path r := by
  cases hpath : path.toText.nameFault? with
  | some fault => exact ⟨_, .badName hpath⟩
  | none =>
    cases hread : tree.read cwd path with
    | error reason => exact ⟨_, .unreadable hpath hread⟩
    | ok bytes =>
      by_cases htext : ∃ cs, Text.Utf8.encode cs = bytes
      · obtain ⟨cs, rfl⟩ := htext
        have ht : tree.HoldsText cwd path (Text.ofChars cs) := ⟨hpath, cs, rfl, hread⟩
        cases hjson : Json.read levels (Text.ofChars cs) with
        | error fault =>
          cases fault with
          | malformed => exact ⟨_, .notJson ht hjson⟩
          | longNumber n =>
            obtain ⟨hlong, digits, hin, hdigits, rfl⟩ := Json.exists_digits_of_read hjson
            exact ⟨_, .longNumber ht hin hdigits hlong hjson⟩
          | tooDeep => exact ⟨_, .tooDeep ht (Json.lt_openings_of_read hjson) hjson⟩
        | ok value =>
          cases hvalue : ofJson value with
          | ok config =>
            obtain ⟨members, rfl, hheld⟩ := ofJson_eq_ok_iff.1 hvalue
            exact ⟨_, .config ht hjson hheld⟩
          | error fault =>
            refine ⟨_, .invalid ht hjson (fun members config hobj hheld => ?_) hvalue⟩
            cases hvalue.symm.trans (ofJson_eq_ok_iff.2 ⟨members, hobj, hheld⟩)
      · exact ⟨_, .undecodable hpath hread (not_exists.1 htext)⟩

/-- Loading gives what comes of the file. -/
theorem loads_iff : Loads levels tree cwd path r ↔ load levels tree cwd path = r := by
  refine ⟨load_of_loads, ?_⟩
  rintro rfl
  obtain ⟨r, h⟩ := exists_loads levels tree cwd path
  rwa [load_of_loads h]

/-- A fault of a configuration is the only one, unless the file is not UTF-8, or
its text has a number that is too long or goes down too many levels. -/
theorem load_or_config_iff (hpath : path.toText.nameFault? = none) :
    ((∃ config, load levels tree cwd path = .ok config) ∨
        ∃ fault, load levels tree cwd path = .error (.config fault)) ↔
      ∀ bytes, tree.read cwd path = .ok bytes → ∃ cs, Text.Utf8.encode cs = bytes ∧
        (∀ n, Json.read levels (Text.ofChars cs) ≠ .error (.longNumber n)) ∧
        Json.read levels (Text.ofChars cs) ≠ .error .tooDeep := by
  cases hread : tree.read cwd path with
  | error reason =>
    have hload : load levels tree cwd path = _ := load_of_loads (.unreadable hpath hread)
    simp [hload]
  | ok bytes =>
    simp only [Except.ok.injEq, forall_eq']
    by_cases htext : ∃ cs, Text.Utf8.encode cs = bytes
    · obtain ⟨cs, rfl⟩ := htext
      have ht : tree.HoldsText cwd path (Text.ofChars cs) := ⟨hpath, cs, rfl, hread⟩
      simp only [Text.Utf8.encode_injective.eq_iff, exists_eq_left, load_of_holdsText ht]
      cases Json.read levels (Text.ofChars cs) with
      | error fault => cases fault <;> simp
      | ok value => cases hvalue : ofJson value <;> simp [Except.mapError, hvalue]
    · have hbytes := not_exists.1 htext
      have hload : load levels tree cwd path = _ :=
        load_of_loads (.undecodable hpath hread hbytes)
      simp [hload, hbytes]

/-- How many levels the program can follow decides nothing but what is too
deep. -/
theorem load_eq_of_le {more : Nat} (hle : levels ≤ more)
    (hdeep : load levels tree cwd path ≠ .error .tooDeep) :
    load more tree cwd path = load levels tree cwd path := by
  have hloads : Loads levels tree cwd path (load levels tree cwd path) := loads_iff.2 rfl
  have hagrees : ∀ {t}, Json.read levels t ≠ .error .tooDeep →
      Json.read more t = Json.read levels t := fun h =>
    (Json.agrees_read _ hle).resolve_left h
  generalize load levels tree cwd path = r at hloads hdeep
  refine loads_iff.1 ?_
  cases hloads with
  | badName hpath => exact .badName hpath
  | unreadable hpath hread => exact .unreadable hpath hread
  | undecodable hpath hread hbytes => exact .undecodable hpath hread hbytes
  | tooDeep => exact absurd rfl hdeep
  | notJson ht hread => exact .notJson ht ((hagrees (by simp [hread])).trans hread)
  | longNumber ht hin hdigits hlong hread =>
    exact .longNumber ht hin hdigits hlong ((hagrees (by simp [hread])).trans hread)
  | invalid ht hread hnot hfault =>
    exact .invalid ht ((hagrees (by simp [hread])).trans hread) hnot hfault
  | config ht hread hheld => exact .config ht ((hagrees (by simp [hread])).trans hread) hheld

end Contents

end Config

/-! ## Runs -/

namespace Command

section Runs

variable {limits : Limits} {tree : FileTree} {cwd : Place} {path : Path} {inv : Invocation}
  {args : List Text} {timestamp : Text} {fault : ContextFault}

/-- Where a run starts to look for a configuration. -/
def Invocation.start (inv : Invocation) : Path :=
  match inv.task.template? with
  | some template => (Path.ofText template).parent
  | none => Path.here

theorem Invocation.run_of_lookupContext
    (h : inv.lookupContext limits tree cwd inv.start = .error fault) :
    inv.run limits tree cwd timestamp = .error (.context fault) := by
  unfold Invocation.start at h
  cases htemplate : inv.task.template? with
  | some template =>
    rw [htemplate] at h
    refine run_eq_error htemplate ?_
    unfold reflect
    simp only [h]
  | none =>
    rw [htemplate] at h
    unfold run
    cases htask : inv.task with
    | context =>
      simp only [h]
      rfl
    | scan | blocks | tree =>
      rw [htask] at htemplate
      cases htemplate

/-- What keeps a configuration from being loaded ends the run. -/
theorem execute_of_load (hargs : Request.ofArguments args = .run inv)
    (hfiles : ∀ name ∈ inv.named,
      name.nameFault? = none ∧ tree.isFileWritten cwd name = true)
    (hconfig : Discovery.configPath tree cwd inv.lookup.configPath inv.start = .ok (some path))
    (hload : Config.load (inv.configLimit limits) tree cwd path = .error fault) :
    execute limits args tree cwd timestamp = .ofFault (.context fault) := by
  have hcontext : inv.lookupContext limits tree cwd inv.start = .error fault := by
    unfold Invocation.lookupContext Context.resolve
    simp only [hconfig, hload]
  rw [execute_eq hargs hfiles, Invocation.run_of_lookupContext hcontext]

end Runs

/-! ## The whole -/

/-- Whatever the bytes of a file are, loading gives the configuration that it
holds or one of the listed faults, and a run that needs it ends with exit code
5 for a fault of the configuration.  Three kinds of files bring another fault,
and then exit code 1: those that are not UTF-8, those with a number that is too
long, and those that go down more levels than the program can follow.  How many
these are decides nothing else. -/
theorem execute_loads (tree : FileTree) (cwd : Place) (path : Path) :
    (∀ levels r, Config.load levels tree cwd path = r ↔ Config.Loads levels tree cwd path r) ∧
      (path.toText.nameFault? = none → ∀ levels,
        (((∃ config, Config.load levels tree cwd path = .ok config) ∨
            ∃ fault, Config.load levels tree cwd path = .error (.config fault)) ↔
          ∀ bytes, tree.read cwd path = .ok bytes → ∃ cs, Text.Utf8.encode cs = bytes ∧
            (∀ n, Json.read levels (Text.ofChars cs) ≠ .error (.longNumber n)) ∧
            Json.read levels (Text.ofChars cs) ≠ .error .tooDeep)) ∧
      (∀ levels more, levels ≤ more → Config.load levels tree cwd path ≠ .error .tooDeep →
        Config.load more tree cwd path = Config.load levels tree cwd path) ∧
      ∀ limits args inv timestamp fault, Request.ofArguments args = .run inv →
        (∀ name ∈ inv.named, name.nameFault? = none ∧ tree.isFileWritten cwd name = true) →
        Discovery.configPath tree cwd inv.lookup.configPath inv.start = .ok (some path) →
        Config.Loads (inv.configLimit limits) tree cwd path (.error fault) →
          (∀ f, fault = .config f →
            execute limits args tree cwd timestamp = .failed (Fault.ofConfig f) ∧
              (execute limits args tree cwd timestamp).exitCode = 5) ∧
          ((∀ f, fault ≠ .config f) →
            execute limits args tree cwd timestamp = .crashed (.context fault) ∧
              (execute limits args tree cwd timestamp).exitCode = 1) := by
  refine ⟨fun levels r => Config.loads_iff.symm,
    fun hpath levels => Config.load_or_config_iff hpath,
    fun levels more hle => Config.load_eq_of_le hle, ?_⟩
  intro limits args inv timestamp fault hargs hfiles hconfig hloads
  rw [execute_of_load hargs hfiles hconfig (Config.loads_iff.1 hloads)]
  constructor
  · rintro f rfl
    exact ⟨rfl, rfl⟩
  · intro hother
    cases fault with
    | config f => exact absurd rfl (hother f)
    | undecodable | longNumber | unknownPreset | tooDeep | badName | startTooLong =>
      exact ⟨rfl, rfl⟩

/-- A directory that bears the name of a configuration is one that is wrong. -/
theorem execute_loads_directory :
    (∀ name ∈ (["t.ss"] : List Text), name.nameFault? = none ∧
      FileTree.isFileWritten ⟨[(["t.ss"], [0x24, 0x41])], [[".tplreflect.json"]]⟩ [] name =
        true) ∧
    ∀ limits, (execute limits ["scan", "t.ss"]
      ⟨[(["t.ss"], [0x24, 0x41])], [[".tplreflect.json"]]⟩ [] []).exitCode = 5 := by
  have hfiles : ∀ name ∈ (["t.ss"] : List Text), name.nameFault? = none ∧
      FileTree.isFileWritten ⟨[(["t.ss"], [0x24, 0x41])], [[".tplreflect.json"]]⟩ [] name =
        true := by decide
  have hread : FileTree.read ⟨[(["t.ss"], [0x24, 0x41])], [[".tplreflect.json"]]⟩ []
      ⟨.root, [".tplreflect.json"]⟩ = .error .isDirectory := by decide
  refine ⟨hfiles, fun limits => ?_⟩
  obtain ⟨-, -, -, hrun⟩ := execute_loads ⟨[(["t.ss"], [0x24, 0x41])], [[".tplreflect.json"]]⟩ []
    ⟨.root, [".tplreflect.json"]⟩
  exact ((hrun limits _ ⟨⟨false, false⟩, ⟨none, none⟩, .scan "t.ss"⟩ [] _ rfl hfiles rfl
    (.unreadable (by decide) hread)).1 _ rfl).2

/-- A byte that stands in no text is no fault of the configuration, and the
exit code does not say that there is one. -/
theorem execute_undecodable :
    (∀ levels, ¬ ((∃ config, Config.load levels ⟨[(["cfg.json"], [0xFF])], []⟩ []
          ⟨.here, ["cfg.json"]⟩ = .ok config) ∨
        ∃ fault, Config.load levels ⟨[(["cfg.json"], [0xFF])], []⟩ [] ⟨.here, ["cfg.json"]⟩ =
          .error (.config fault))) ∧
      ∀ limits, (execute limits ["scan", "t.ss"]
        ⟨[(["t.ss"], [0x24, 0x41]), ([".tplreflect.json"], [0xFF])], []⟩ [] []).exitCode ≠ 5 := by
  constructor
  · intro levels
    have hload : Config.load levels ⟨[(["cfg.json"], [0xFF])], []⟩ [] ⟨.here, ["cfg.json"]⟩ =
        .error .undecodable := rfl
    rw [hload]
    simp
  · intro limits
    have hbytes : Config.ofBytes limits.config "/.tplreflect.json" [0xFF] =
        .error .undecodable := rfl
    rw [execute_of_ofBytes hbytes]
    decide

/-- However many levels the program can follow, there is a configuration that goes
down more of them, and it is no fault of the configuration either. -/
theorem execute_brackets (limits : Limits) :
    execute limits ["scan", "t.ss"] ⟨[(["t.ss"], [0x24, 0x41]), ([".tplreflect.json"],
        Text.Utf8.encode (List.replicate (limits.config + 1) '['))], []⟩ [] [] =
      .crashed (.context .tooDeep) := by
  have hread : Json.read limits.config
      (Text.ofChars (List.replicate (limits.config + 1) '[')) = .error .tooDeep := by
    rw [Text.ofChars, List.map_replicate, Json.read_replicate (Nat.lt_succ_self _)]
  have hbytes : Config.ofBytes limits.config "/.tplreflect.json"
      (Text.Utf8.encode (List.replicate (limits.config + 1) '[')) = .error .tooDeep := by
    rw [Config.ofBytes, Text.Utf8.decode?_encode]
    simp only [hread]
  rw [execute_of_ofBytes hbytes]
  rfl

end Command

end TemplateScopes
