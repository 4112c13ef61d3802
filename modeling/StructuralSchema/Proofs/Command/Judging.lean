import StructuralSchema.Proofs.Command.Task
import StructuralSchema.Proofs.Fields

namespace StructuralSchema

open List

namespace Inputs

variable {disk : Disk} {pointer : Option String} {pattern path text : String}

theorem resolve_eq_ok_iff {paths : List String} :
    resolve disk pattern = .ok paths ↔ StandsFor disk pattern paths := by
  unfold resolve StandsFor Glob.hasWildcard
  split
  · cases Glob.find disk pattern with
    | error mistake => simp
    | ok found =>
      cases found with
      | nil => simp
      | cons first rest =>
        simp only [Except.ok.injEq, iff_self_and]
        rintro rfl
        exact cons_ne_nil first rest
  · simp [eq_comm]

theorem StandsFor.unique {paths others : List String} (h : StandsFor disk pattern paths)
    (ho : StandsFor disk pattern others) : paths = others :=
  Except.ok.inj ((resolve_eq_ok_iff.mpr h).symm.trans (resolve_eq_ok_iff.mpr ho))

theorem select_eq_ok_iff {label : String} {given : Instance} :
    select pointer label text = .ok given ↔ Holds pointer text given := by
  cases pointer with
  | none => simp [select, Holds, eq_comm]
  | some pointer =>
    simp only [select, Holds, bind_eq_ok_iff, mapError_eq_ok_iff]
    apply exists_congr
    intro root
    cases Json.Pointer.select? pointer root <;> simp [eq_comm]

theorem loadOne_eq_ok_iff {input : Loaded} :
    loadOne disk pointer path = .ok input ↔
      input.label = path ∧ Finds disk pointer path input.given := by
  obtain ⟨label, given⟩ := input
  simp only [loadOne, Finds, bind_eq_ok_iff, mapError_eq_ok_iff, pure_eq_ok_iff, select_eq_ok_iff,
    Loaded.mk.injEq]
  constructor
  · rintro ⟨text, ht, _, hg, rfl, rfl⟩
    exact ⟨rfl, text, ht, hg⟩
  · rintro ⟨rfl, text, ht, hg⟩
    exact ⟨text, ht, given, hg, rfl, rfl⟩

theorem load_eq_ok_iff {inputs : Inputs} {loaded : List Loaded} :
    inputs.load disk = .ok loaded ↔ ∃ found : List (List String),
      Forall₂ (StandsFor disk) inputs.patterns found ∧
        Forall₂ (fun path input => input.label = path ∧
          Finds disk inputs.pointer path input.given) found.flatten loaded := by
  simp only [load, bind_eq_ok_iff, mapM_eq_ok_iff, resolve_eq_ok_iff, loadOne_eq_ok_iff]

end Inputs

theorem Settings.load_eq_ok_iff {settings : Settings} {disk : Disk} {looselyTyped : Bool}
    {options : Options} : settings.load disk looselyTyped = .ok options ↔
      ∃ base, settings.Base disk base ∧ options = base.merged settings.maxSize looselyTyped := by
  unfold load Base
  cases settings.config with
  | none => simp [bind, Except.bind, pure, Except.pure, eq_comm]
  | some path =>
    simp only [bind_eq_ok_iff, mapError_eq_ok_iff, pure_eq_ok_iff]
    constructor
    · rintro ⟨text, ht, base, hb, rfl⟩
      exact ⟨base, ⟨text, ht, hb⟩, rfl⟩
    · rintro ⟨base, ⟨text, ht, hb⟩, rfl⟩
      exact ⟨text, ht, base, hb, rfl⟩

theorem loadSchema_eq_ok_iff {disk : Disk} {path : String} {schema : Schema Builtin} :
    loadSchema disk path = .ok schema ↔ ∃ text, disk.read path = .ok text ∧
      Schema.ofDocumentText (Registry.builtin id) text = .ok schema := by
  simp only [loadSchema, bind_eq_ok_iff, mapError_eq_ok_iff]

def Question.reason (options : Options) (schema : Schema Builtin) (given : Instance) :
    Question → Option String
  | shape => Report.checkReason options schema given
  | checks _ => Report.validateReason options schema given

theorem Question.reason_eq_none_iff {question : Question} {options : Options}
    {schema : Schema Builtin} {given : Instance} :
    question.reason options schema given = none ↔ question.Passes options schema given := by
  cases question with
  | shape =>
    unfold reason Report.checkReason Passes
    rcases isValid options given schema with fault | _ | _ <;> simp
  | checks looselyTyped =>
    unfold reason Report.validateReason Passes
    cases validate options given schema <;> simp

theorem Question.reason_eq_some_iff {question : Question} {options : Options}
    {schema : Schema Builtin} {given : Instance} {why : String} :
    question.reason options schema given = some why ↔
      question.FailsWith options schema given why := by
  cases question with
  | shape =>
    unfold reason Report.checkReason FailsWith
    rcases isValid options given schema with fault | _ | _ <;> simp [eq_comm]
  | checks looselyTyped =>
    unfold reason Report.validateReason FailsWith
    cases validate options given schema <;> simp [eq_comm]

namespace Task

variable {task : Task} {disk : Disk} {colours : Bool}

/-- Where no single thing is missing, the task can load all of them together. -/
theorem exists_loads_of_not_lacks (h : ¬task.Lacks disk) :
    ∃ schema options loaded, task.Loads disk schema options loaded := by
  have hschema : ∃ schema, task.FindsSchema disk schema := by
    by_contra hn
    exact h (.schema (not_exists.mp hn))
  have hbase : ∃ base, task.settings.Base disk base := by
    by_contra hn
    exact h (.options (not_exists.mp hn))
  have hpaths : ∀ pattern ∈ task.inputs.patterns,
      ∃ paths, Inputs.StandsFor disk pattern paths := by
    intro pattern hp
    by_contra hn
    exact h (.paths hp (not_exists.mp hn))
  obtain ⟨found, hf⟩ := exists_forall₂ hpaths
  have hinputs : ∀ path ∈ found.flatten, ∃ input : Loaded, input.label = path ∧
      Inputs.Finds disk task.inputs.pointer path input.given := by
    intro path hp
    obtain ⟨paths, hm, hpath⟩ := mem_flatten.mp hp
    obtain ⟨pattern, hpattern, hstands⟩ := exists_mem_left_of_forall₂ hf hm
    by_contra hn
    exact h (.input hpattern hstands hpath fun given hg => hn ⟨⟨path, given⟩, rfl, hg⟩)
  obtain ⟨schema, hs⟩ := hschema
  obtain ⟨base, hb⟩ := hbase
  obtain ⟨loaded, hl⟩ := exists_forall₂ hinputs
  exact ⟨schema, _, loaded, hs, ⟨base, hb, rfl⟩, found, hf, hl⟩

theorem Loads.not_lacks {schema : Schema Builtin} {options : Options} {loaded : List Loaded}
    (h : task.Loads disk schema options loaded) : ¬task.Lacks disk := by
  obtain ⟨hs, ⟨base, hb, _⟩, found, hf, hi⟩ := h
  intro hl
  cases hl with
  | schema h => exact h schema hs
  | options h => exact h base hb
  | paths hp h =>
    obtain ⟨paths, _, hstands⟩ := exists_mem_right_of_forall₂ hf hp
    exact h paths hstands
  | input hp hstands hm h =>
    obtain ⟨paths, hpaths, ho⟩ := exists_mem_right_of_forall₂ hf hp
    obtain rfl := hstands.unique ho
    obtain ⟨input, _, _, hg⟩ := exists_mem_right_of_forall₂ hi (mem_flatten.mpr ⟨_, hpaths, hm⟩)
    exact h input.given hg

/-- A run comes to an ending just if it finds all that it needs, and then it is the one ending that
tells of what was loaded. -/
theorem attempt_eq_ok_iff {ending : Ending} :
    task.command.attempt colours disk = .ok ending ↔ ∃ schema options loaded,
      task.Loads disk schema options loaded ∧
        ending = Report.ending colours disk (task.question.reason options schema ·) loaded := by
  obtain ⟨path, inputs, settings, question⟩ := task
  cases question
  all_goals
    simp only [command, Command.attempt, Command.runCheck, Command.runValidate, bind_eq_ok_iff,
      pure_eq_ok_iff, loadSchema_eq_ok_iff, Settings.load_eq_ok_iff, Inputs.load_eq_ok_iff]
    constructor
    · rintro ⟨schema, hs, _, ⟨base, hb, rfl⟩, loaded, hi, rfl⟩
      exact ⟨schema, _, loaded, ⟨hs, ⟨base, hb, rfl⟩, hi⟩, rfl⟩
    · rintro ⟨schema, _, loaded, ⟨hs, ⟨base, hb, rfl⟩, hi⟩, rfl⟩
      exact ⟨schema, hs, _, ⟨base, hb, rfl⟩, loaded, hi, rfl⟩

end Task

namespace Report

def entries (reason : Instance → Option String) (loaded : List Loaded) : List Entry :=
  loaded.map fun input => ⟨input.label, reason input.given⟩

variable {colours : Bool} {disk : Disk} {reason : Instance → Option String} {loaded : List Loaded}

theorem exists_shown_out_ending : ∃ texts, Forall₂ (Entry.Shows colours) (entries reason loaded)
    texts ∧ (ending colours disk reason loaded).out = String.join texts := by
  refine ⟨_, ?_, rfl⟩
  rw [entries, forall₂_map_left_iff, forall₂_map_right_iff, forall₂_same]
  exact fun input _ => shows_iff.mpr rfl

theorem exitCode_ending : (ending colours disk reason loaded).exitCode =
    if ∀ entry ∈ entries reason loaded, entry.reason = none then 0 else 1 := by
  simp [ending, entries]

end Report

namespace Task

theorem ends_run (task : Task) (colours : Bool) (disk : Disk) :
    task.Ends colours disk (task.command.run colours disk) := by
  by_cases hl : task.Lacks disk
  · cases ha : task.command.attempt colours disk with
    | error failure =>
      rw [Command.run, ha]
      exact .silent hl rfl rfl rfl
    | ok ending =>
      obtain ⟨_, _, _, hload, _⟩ := attempt_eq_ok_iff.mp ha
      exact absurd hl hload.not_lacks
  · obtain ⟨schema, options, loaded, hload⟩ := exists_loads_of_not_lacks hl
    rw [Command.run, attempt_eq_ok_iff.mpr ⟨schema, options, loaded, hload, rfl⟩]
    obtain ⟨texts, hs, ho⟩ := Report.exists_shown_out_ending
    refine .told hl hload ?_ hs ho Report.exitCode_ending rfl
    rw [Report.entries, forall₂_map_right_iff, forall₂_same]
    exact fun input _ =>
      ⟨rfl, Question.reason_eq_none_iff, fun why => Question.reason_eq_some_iff⟩

end Task

section Asked

variable {switches : List Switch} {arguments : List String} {values : Command.Values}

theorem askedBy_of_readSwitches {name path : String} {found : Inputs} {question : Question}
    (ha : Switch.Apart switches)
    (hm : ∀ switch ∈ Switch.schema :: Command.inputSwitches ++ Command.settingSwitches,
      switch ∈ switches)
    (h : Command.readSwitches switches [] none arguments = .ok values)
    (hs : Command.one values .schema = .ok path) (hi : Command.inputs values = .ok found)
    (hq : name = "check" ∧ question = .shape ∨
      name = "validate" ∧ question = .checks (Command.mentions .looselyTyped arguments)) :
    Task.AskedBy ⟨path, found, Command.settings values, question⟩ name arguments := by
  have hall : ∀ switch ∈ Switch.schema :: Command.inputSwitches ++ Command.settingSwitches,
      switch.isBare = false →
        Command.all values switch = Command.valuesFor switch false arguments :=
    fun switch hw ht => Command.all_readSwitches ha (hm switch hw) ht h
  have hpath : Command.one? values .schema = some path := by
    unfold Command.one at hs
    split at hs
    · cases hs
      assumption
    · cases hs
  have hinputs : ∀ switch ∈ Command.inputSwitches, switch ∈ switches := fun switch hw =>
    hm switch (mem_append_left _ (mem_cons_of_mem _ hw))
  obtain rfl := Inputs.eq_named_of_readSwitches ha hinputs h hi
  constructor
  case question => exact hq
  case schema => rw [← hall .schema (by decide) rfl, ← hpath, Command.one?]
  case patterns => rfl
  case pointer => rfl
  case config => exact congrArg List.head? (hall .config (by decide) rfl)
  case maxSize =>
    exact congrArg (fun all => all.head?.bind Switch.size?) (hall .maxSize (by decide) rfl)

end Asked

theorem exists_askedBy_of_ofArguments {name : String} {arguments : List String} {command : Command}
    (hn : name = "check" ∨ name = "validate")
    (h : Command.ofArguments (name :: arguments) = .ok command) :
    ∃ task : Task, task.command = command ∧ task.AskedBy name arguments := by
  obtain rfl | rfl := hn
  · simp only [Command.ofArguments, Command.checkOfArguments, String.reduceEq, if_true,
      if_false, bind_eq_ok_iff, pure_eq_ok_iff] at h
    obtain ⟨values, hv, path, hs, found, hi, rfl⟩ := h
    exact ⟨⟨path, found, Command.settings values, .shape⟩, rfl,
      askedBy_of_readSwitches (by decide) (by decide) hv hs hi (.inl ⟨rfl, rfl⟩)⟩
  · simp only [Command.ofArguments, Command.validateOfArguments, String.reduceEq, if_true,
      if_false, bind_eq_ok_iff, pure_eq_ok_iff] at h
    obtain ⟨values, hv, path, hs, found, hi, rfl⟩ := h
    have hloose : Command.isGiven values .looselyTyped =
        Command.mentions .looselyTyped arguments :=
      Command.isGiven_readSwitches (by decide) (by decide) hv
    exact ⟨⟨path, found, Command.settings values, .checks (Command.isGiven values .looselyTyped)⟩,
      rfl, askedBy_of_readSwitches (by decide) (by decide) hv hs hi (.inr ⟨rfl, by rw [hloose]⟩)⟩

/-- Whatever arguments are accepted, a command that judges instances takes its inputs in the order
in which they are given, and it tells of each of them or of none. -/
theorem ends_run_of_ofArguments {name : String} {arguments : List String} {command : Command}
    (hn : name = "check" ∨ name = "validate")
    (h : Command.ofArguments (name :: arguments) = .ok command) (colours : Bool) (disk : Disk) :
    ∃ task : Task, task.command = command ∧ task.AskedBy name arguments ∧
      task.Ends colours disk (command.run colours disk) := by
  obtain ⟨task, rfl, hasked⟩ := exists_askedBy_of_ofArguments hn h
  exact ⟨task, rfl, hasked, task.ends_run colours disk⟩

/-- As long as one input is not there, nothing is told of the others, before it and after it. Then
one input differs from the schema, and the one that does not is told of twice. -/
theorem ends_run_of_ofArguments_gone_and_found :
    let arguments :=
      ["-s", "s.json", "--input=a.json", "--max-size", "20", "-i", "b.json", "a.json"]
    let command : Command :=
      .check "s.json" ⟨["a.json", "b.json", "a.json"], none⟩ ⟨none, some 20⟩
    let file (name : String) (value : Json) : Location × Node :=
      ([name], .file (Json.object [("n", value)]).compact.toUTF8)
    let gone : Disk := ⟨[file "s.json" (.string "str"), file "a.json" (.string "x")], []⟩
    let found : Disk := ⟨file "b.json" .null :: gone.nodes, []⟩
    let Judges (disk : Disk) : Prop := ∃ task : Task, task.command = command ∧
      task.AskedBy "check" arguments ∧ task.Ends true disk (command.run true disk)
    Command.ofArguments ("check" :: arguments) = .ok command ∧ Judges gone ∧ Judges found ∧
      (command.run true gone).out = "" ∧ (command.run true gone).exitCode = 1 ∧
      (command.run true found).out = "\x1b[32m✅\x1b[0m a.json\n" ++
        "\x1b[31m❌\x1b[0m b.json: \x1b[31mshape differs from the schema\x1b[0m\n" ++
        "\x1b[32m✅\x1b[0m a.json\n" ∧
      (command.run true found).exitCode = 1 := by
  intro arguments command file gone found Judges
  have h : Command.ofArguments ("check" :: arguments) = .ok command := by rfl
  have hj (disk : Disk) : Judges disk := ends_run_of_ofArguments (.inl rfl) h true disk
  refine ⟨h, hj gone, hj found, ?_⟩
  decide +kernel

end StructuralSchema
