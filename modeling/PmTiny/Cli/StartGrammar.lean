import PmTiny.Cli.CliCommand

namespace PmTiny.Cli
open Persist
set_option autoImplicit true

inductive StartOption where
  | text (field : TextField) (value : String)
  | integer (field : IntegerField) (value : Int)
  | switch (field : SwitchField) (value : Bool)
  | env (entry : String)
  | dependsOn (name : String)
  | failureAction (action : FailureAction)
  | logMode (mode : LogMode)
  | log
  deriving DecidableEq

inductive Spells : StartOption → List String → Prop where
  | text (hrule : startRule option = some (.text field)) :
      Spells (.text field value) [option, value]
  | integer (hrule : startRule option = some (.integer field))
      (hparse : parseInteger text = some value) (hrange : field.failure value = none) :
      Spells (.integer field value) [option, text]
  | switch (hrule : startRule option = some (.switch field value)) :
      Spells (.switch field value) [option]
  | env (hrule : startRule option = some .env) (hkey : '=' ∈ entry.toList)
      (hnamed : entry.toList.head? ≠ some '=')
      (hreserved : "PM_TINY_".toList.isPrefixOf entry.toList = false) :
      Spells (.env entry) [option, entry]
  | dependsOn (hrule : startRule option = some .dependsOn) : Spells (.dependsOn name) [option, name]
  | failureAction (hrule : startRule option = some .failureAction)
      (hparse : strToFailureAction text = .ok action) :
      Spells (.failureAction action) [option, text]
  | logMode (hrule : startRule option = some .logMode) (hparse : parseLogMode text = some mode) :
      Spells (.logMode mode) [option, text]
  | log : Spells .log ["--log"]

def takesValue (option : String) : Bool := (startRule option).any StartRule.takesValue

/-- The options before the first `--` in option position, each with its value, and what stands
behind it. -/
def splitOptions : List String → List (List String) × Option (List String)
  | [] => ([], none)
  | option :: rest =>
    if option = "--" then ([], some rest)
    else if takesValue option then
      match rest with
      | [] => ([[option]], none)
      | value :: rest => ([option, value] :: (splitOptions rest).1, (splitOptions rest).2)
    else ([option] :: (splitOptions rest).1, (splitOptions rest).2)

def lastValue (select : StartOption → Option α) (given : List StartOption) : Option α :=
  (given.filterMap select).getLast?

namespace StartOption

def text? (field : TextField) : StartOption → Option String
  | .text other value => if other = field then some value else none
  | _ => none

def integer? (field : IntegerField) : StartOption → Option Int
  | .integer other value => if other = field then some value else none
  | _ => none

def switch? (field : SwitchField) : StartOption → Option Bool
  | .switch other value => if other = field then some value else none
  | _ => none

def env? : StartOption → Option String
  | .env entry => some entry
  | _ => none

def dependsOn? : StartOption → Option String
  | .dependsOn name => some name
  | _ => none

def failureAction? : StartOption → Option FailureAction
  | .failureAction action => some action
  | _ => none

def logMode? : StartOption → Option LogMode
  | .logMode mode => some mode
  | _ => none

end StartOption

/-- Every field has the value of the last option that sets it, or its default; the options that can
be repeated give one entry each. -/
structure Sets (given : List StartOption) (start : StartCommandOptions) : Prop where
  text : ∀ field : TextField,
    field.get start = (lastValue (StartOption.text? field) given).getD (field.get {})
  integer : ∀ field : IntegerField,
    field.get start = (lastValue (StartOption.integer? field) given).getD (field.get {})
  switch : ∀ field : SwitchField,
    field.get start = (lastValue (StartOption.switch? field) given).getD (field.get {})
  env : start.env = given.filterMap StartOption.env?
  dependsOn : start.dependsOn = given.filterMap StartOption.dependsOn?
  failureAction : start.failureAction = (lastValue StartOption.failureAction? given).getD .skip
  logMode : start.logMode = (lastValue StartOption.logMode? given).getD .split
  logModeExplicit :
    start.logModeExplicit = given.any fun option => (StartOption.logMode? option).isSome
  showLog : start.showLog = given.any fun option => option = .log

/-- The arguments name a program, and `items` follow. -/
def Names (args : List String) (name : String) (items : List String) : Prop :=
  ∃ program command, args = program :: command :: name :: items ∧ name ≠ "" ∧
    name.toList.head? ≠ some '-'

def Accepted (args : List String) : Prop := ∃ start, parseStart args = .ok start

/-- The two forms of the command. -/
structure StartGrammar (args : List String) : Prop where
  named : Accepted args → ∃ name items, Names args name items
  configured : ∀ name items, Names args name items → (splitOptions items).2 = none →
    (Accepted args ↔ ∀ item ∈ items, item = "--log")
  defined : ∀ name items after, Names args name items → (splitOptions items).2 = some after →
    (Accepted args ↔
      (∀ words ∈ (splitOptions items).1, ∃ option, Spells option words) ∧ after ≠ [])
  result : ∀ name items after start, Names args name items →
    (splitOptions items).2 = some after → parseStart args = .ok start →
      start.name = name ∧ after = start.executable :: start.args ∧ ∃ given,
        List.Forall₂ Spells given (splitOptions items).1 ∧ Sets given start

/-- The options together leave every field as it is by default. -/
structure Harmless (given : List StartOption) : Prop where
  text : ∀ field value, lastValue (StartOption.text? field) given = some value →
    value = field.get {}
  integer : ∀ field value, lastValue (StartOption.integer? field) given = some value →
    value = field.get {}
  switch : ∀ field value, lastValue (StartOption.switch? field) given = some value →
    value = field.get {}
  failureAction : ∀ action, lastValue StartOption.failureAction? given = some action →
    action = .skip
  env : ∀ entry, .env entry ∉ given
  dependsOn : ∀ name, .dependsOn name ∉ given
  logMode : ∀ mode, .logMode mode ∉ given

/-- Definition options were given without a definition, and all of them say what holds anyway. -/
def SilentDefinition (args : List String) : Prop :=
  ∃ name items given, Names args name items ∧ (splitOptions items).2 = none ∧
    List.Forall₂ Spells given (splitOptions items).1 ∧ (∃ option ∈ given, option ≠ .log) ∧
      Harmless given

def StartOption.apply (option : StartOption) (start : StartCommandOptions) : StartCommandOptions :=
  match option with
  | .text field value => field.set value start
  | .integer field value => field.set value start
  | .switch field value => field.set value start
  | .env entry => { start with env := start.env ++ [entry] }
  | .dependsOn name => { start with dependsOn := start.dependsOn ++ [name] }
  | .failureAction action => { start with failureAction := action }
  | .logMode mode => { start with logMode := mode, logModeExplicit := true }
  | .log => { start with showLog := true }

theorem startRule_log : startRule option = some .log ↔ option = "--log" := by
  constructor
  · intro hrule
    by_contra hlog
    have hchain {c : Prop} [Decidable c] {rule : StartRule} {rest : Option StartRule}
        (hne : rule ≠ .log) (hrest : rest ≠ some .log) :
        (if c then some rule else rest) ≠ some .log := by
      split
      · exact fun hsome => hne (Option.some.inj hsome)
      · exact hrest
    rw [startRule, if_neg hlog] at hrule
    revert hrule
    -- none of the other 23 options has the rule
    iterate 23 refine hchain (by decide) ?_
    intro hnone
    cases hnone
  · rintro rfl
    rfl

theorem takesValue_eq (hrule : startRule option = some rule) :
    takesValue option = rule.takesValue := by
  rw [takesValue, hrule, Option.any_some]

theorem applyValue_eq_ok (hrule : startRule option = some rule) (htakes : rule.takesValue = true) :
    rule.applyValue option value start = .ok start' ↔
      ∃ given, Spells given [option, value] ∧ start' = given.apply start := by
  constructor
  · intro h
    cases rule with
    | text field =>
      cases h
      exact ⟨_, .text hrule, rfl⟩
    | integer field =>
      unfold StartRule.applyValue at h
      dsimp only at h
      split at h
      · cases h
      · rename_i parsed hparse
        split at h
        · cases h
        · rename_i hrange
          cases h
          exact ⟨_, .integer hrule hparse hrange, rfl⟩
    | switch field value => cases htakes
    | env =>
      unfold StartRule.applyValue at h
      dsimp only at h
      split at h
      · cases h
      · rename_i hentry
        rw [not_or, not_not] at hentry
        split at h
        · cases h
        · rename_i hreserved
          cases h
          exact ⟨_, .env hrule hentry.1 hentry.2 (Bool.eq_false_of_not_eq_true hreserved), rfl⟩
    | dependsOn =>
      cases h
      exact ⟨_, .dependsOn hrule, rfl⟩
    | failureAction =>
      unfold StartRule.applyValue at h
      dsimp only at h
      split at h
      · rename_i action hparse
        cases h
        exact ⟨_, .failureAction hrule hparse, rfl⟩
      · cases h
    | logMode =>
      unfold StartRule.applyValue at h
      dsimp only at h
      split at h
      · rename_i mode hparse
        cases h
        exact ⟨_, .logMode hrule hparse, rfl⟩
      · cases h
    | log => cases htakes
  · rintro ⟨given, hspells, rfl⟩
    cases hspells with
    | text hsame =>
      cases hrule.symm.trans hsame
      rfl
    | integer hsame hparse hrange =>
      cases hrule.symm.trans hsame
      simp only [StartRule.applyValue, hparse, hrange, StartOption.apply]
    | env hsame hkey hnamed hreserved =>
      cases hrule.symm.trans hsame
      have hentry : ¬ ('=' ∉ value.toList ∨ value.toList.head? = some '=') :=
        not_or_intro (not_not_intro hkey) hnamed
      rw [StartRule.applyValue, if_neg hentry, hreserved, if_neg Bool.false_ne_true]
      rfl
    | dependsOn hsame =>
      cases hrule.symm.trans hsame
      rfl
    | failureAction hsame hparse =>
      cases hrule.symm.trans hsame
      simp only [StartRule.applyValue, hparse, StartOption.apply]
    | logMode hsame hparse =>
      cases hrule.symm.trans hsame
      simp only [StartRule.applyValue, hparse, StartOption.apply]

theorem Spells.alone (h : Spells given [option]) :
    ∃ rule, startRule option = some rule ∧ rule.takesValue = false ∧
      ∀ start, rule.applyFlag start = given.apply start := by
  cases h with
  | switch hrule => exact ⟨_, hrule, rfl, fun _ => rfl⟩
  | log => exact ⟨.log, rfl, rfl, fun _ => rfl⟩

theorem exists_spells_alone (hrule : startRule option = some rule)
    (htakes : rule.takesValue = false) : ∃ given, Spells given [option] := by
  cases rule with
  | switch field value => exact ⟨_, .switch hrule⟩
  | log =>
    rw [startRule_log.1 hrule]
    exact ⟨_, .log⟩
  | text field => cases htakes
  | integer field => cases htakes
  | env => cases htakes
  | dependsOn => cases htakes
  | failureAction => cases htakes
  | logMode => cases htakes

/-- What becomes of the options at the end of the arguments, or at a `--`. -/
def Ends : Option (List String) → StartCommandOptions → StartCommandOptions → Prop
  | none, start, result => result = start
  | some [], _, _ => False
  | some (executable :: args), start, result =>
    result = { start with create := true, executable := executable, args := args }

def applyAll (given : List StartOption) (start : StartCommandOptions) : StartCommandOptions :=
  given.foldl (fun start option => option.apply start) start

theorem parseOptions_value (hne : option ≠ "--") (hrule : startRule option = some rule)
    (htakes : rule.takesValue = true) :
    parseOptions (option :: value :: rest) start = .ok result ↔ ∃ start',
      rule.applyValue option value start = .ok start' ∧ parseOptions rest start' = .ok result := by
  rw [parseOptions.eq_def]
  dsimp only
  rw [if_neg hne, hrule]
  dsimp only
  rw [if_pos htakes]
  cases rule.applyValue option value start with
  | error message =>
    constructor
    · intro h
      cases h
    · rintro ⟨start', hstart, -⟩
      cases hstart
  | ok start' =>
    constructor
    · exact fun h => ⟨start', rfl, h⟩
    · rintro ⟨_, hstart, h⟩
      cases hstart
      exact h

theorem parseOptions_flag (hne : option ≠ "--") (hrule : startRule option = some rule)
    (htakes : rule.takesValue = false) (rest : List String) (start : StartCommandOptions) :
    parseOptions (option :: rest) start = parseOptions rest (rule.applyFlag start) := by
  rw [parseOptions.eq_def]
  dsimp only
  rw [if_neg hne, hrule]
  dsimp only
  rw [htakes]
  exact if_neg Bool.false_ne_true

theorem parseOptions_unknown (hne : option ≠ "--") (hrule : startRule option = none)
    (rest : List String) (start : StartCommandOptions) :
    parseOptions (option :: rest) start = .error ("unknown start option: " ++ option) := by
  rw [parseOptions.eq_def]
  dsimp only
  rw [if_neg hne, hrule]

theorem parseOptions_missing (hne : option ≠ "--") (hrule : startRule option = some rule)
    (htakes : rule.takesValue = true) (start : StartCommandOptions) :
    parseOptions [option] start = .error (option ++ " requires a value") := by
  rw [parseOptions.eq_def]
  dsimp only
  rw [if_neg hne, hrule]
  dsimp only
  rw [if_pos htakes]

theorem exists_rule (htakes : takesValue option = true) :
    ∃ rule, startRule option = some rule ∧ rule.takesValue = true :=
  (Option.any_eq_true _ _).1 htakes

theorem Spells.applyFlag (h : Spells given [option]) (hrule : startRule option = some rule)
    (start : StartCommandOptions) : rule.applyFlag start = given.apply start := by
  obtain ⟨other, hother, -, happly⟩ := h.alone
  cases hrule.symm.trans hother
  exact happly start

theorem not_spells_alone (hrule : startRule option = some rule) (htakes : rule.takesValue = true) :
    ¬ Spells given [option] := by
  intro hspells
  obtain ⟨other, hother, hflag, -⟩ := hspells.alone
  cases hrule.symm.trans hother
  rw [htakes] at hflag
  cases hflag

theorem not_spells_unknown (hrule : startRule option = none) : ¬ Spells given [option] := by
  intro hspells
  obtain ⟨other, hother, -⟩ := hspells.alone
  rw [hrule] at hother
  cases hother

theorem exists_spells_cons {P : List StartOption → Prop} :
    (∃ given, List.Forall₂ Spells given (words :: groups) ∧ P given) ↔
      ∃ first, Spells first words ∧ ∃ given, List.Forall₂ Spells given groups ∧
        P (first :: given) := by
  constructor
  · rintro ⟨given, hgiven, h⟩
    cases hgiven with
    | cons hspells hgiven => exact ⟨_, hspells, _, hgiven, h⟩
  · rintro ⟨first, hspells, given, hgiven, h⟩
    exact ⟨first :: given, .cons hspells hgiven, h⟩

theorem parseOptions_eq_ok (items : List String) (start result : StartCommandOptions) :
    parseOptions items start = .ok result ↔ ∃ given,
      List.Forall₂ Spells given (splitOptions items).1 ∧
        Ends (splitOptions items).2 (applyAll given start) result := by
  fun_induction splitOptions items generalizing start with
  | case1 =>
    constructor
    · intro h
      cases h
      exact ⟨[], .nil, rfl⟩
    · rintro ⟨given, hgiven, hends⟩
      cases hgiven
      rw [parseOptions]
      exact congrArg Except.ok hends.symm
  | case2 rest =>
    cases rest with
    | nil =>
      constructor
      · intro h
        cases h
      · rintro ⟨given, -, hends⟩
        exact hends.elim
    | cons executable args =>
      constructor
      · intro h
        cases h
        exact ⟨[], .nil, rfl⟩
      · rintro ⟨given, hgiven, hends⟩
        cases hgiven
        exact congrArg Except.ok hends.symm
  | case3 option hne htakes =>
    obtain ⟨rule, hrule, hvalue⟩ := exists_rule htakes
    rw [parseOptions_missing hne hrule hvalue, exists_spells_cons]
    constructor
    · intro h
      cases h
    · rintro ⟨first, hspells, -⟩
      exact absurd hspells (not_spells_alone hrule hvalue)
  | case4 option hne htakes value rest ih =>
    obtain ⟨rule, hrule, hvalue⟩ := exists_rule htakes
    rw [parseOptions_value hne hrule hvalue, exists_spells_cons]
    constructor
    · rintro ⟨start', hstart, h⟩
      obtain ⟨first, hspells, rfl⟩ := (applyValue_eq_ok hrule hvalue).1 hstart
      exact ⟨first, hspells, (ih _).1 h⟩
    · rintro ⟨first, hspells, hrest⟩
      exact ⟨_, (applyValue_eq_ok hrule hvalue).2 ⟨first, hspells, rfl⟩, (ih _).2 hrest⟩
  | case5 option rest hne htakes ih =>
    cases hrule : startRule option with
    | none =>
      rw [parseOptions_unknown hne hrule, exists_spells_cons]
      constructor
      · intro h
        cases h
      · rintro ⟨first, hspells, -⟩
        exact absurd hspells (not_spells_unknown hrule)
    | some rule =>
      have hflag : rule.takesValue = false := by
        rw [← takesValue_eq hrule]
        exact Bool.eq_false_of_not_eq_true htakes
      rw [parseOptions_flag hne hrule hflag, exists_spells_cons]
      constructor
      · intro h
        obtain ⟨first, hspells⟩ := exists_spells_alone hrule hflag
        rw [hspells.applyFlag hrule] at h
        exact ⟨first, hspells, (ih _).1 h⟩
      · rintro ⟨first, hspells, hrest⟩
        rw [hspells.applyFlag hrule]
        exact (ih _).2 hrest

theorem get_applyAll (get : StartCommandOptions → α) (select : StartOption → Option α)
    (happly : ∀ option start,
      get (StartOption.apply option start) = (select option).getD (get start))
    (given : List StartOption) (start : StartCommandOptions) :
    get (applyAll given start) = (lastValue select given).getD (get start) := by
  induction given generalizing start with
  | nil => rfl
  | cons option given ih =>
    rw [applyAll, List.foldl_cons]
    refine (ih _).trans ?_
    rw [happly, lastValue, lastValue, List.filterMap_cons]
    cases select option with
    | none => rfl
    | some value =>
      rw [List.getLast?_cons]
      rfl

theorem entries_applyAll (get : StartCommandOptions → List α) (select : StartOption → Option α)
    (happly : ∀ option start,
      get (StartOption.apply option start) = get start ++ (select option).toList)
    (given : List StartOption) (start : StartCommandOptions) :
    get (applyAll given start) = get start ++ given.filterMap select := by
  induction given generalizing start with
  | nil => exact (List.append_nil _).symm
  | cons option given ih =>
    rw [applyAll, List.foldl_cons]
    refine (ih _).trans ?_
    rw [happly, List.filterMap_cons]
    cases select option with
    | none => rw [Option.toList_none, List.append_nil]
    | some value => rw [Option.toList_some, List.append_assoc, List.singleton_append]

theorem flag_applyAll (get : StartCommandOptions → Bool) (raises : StartOption → Bool)
    (happly : ∀ option start, get (StartOption.apply option start) = (raises option || get start))
    (given : List StartOption) (start : StartCommandOptions) :
    get (applyAll given start) = (given.any raises || get start) := by
  induction given generalizing start with
  | nil => rfl
  | cons option given ih =>
    rw [applyAll, List.foldl_cons]
    refine (ih _).trans ?_
    rw [happly, List.any_cons, Bool.or_left_comm, Bool.or_assoc]

theorem kept_applyAll (get : StartCommandOptions → α)
    (happly : ∀ option start, get (StartOption.apply option start) = get start)
    (given : List StartOption) (start : StartCommandOptions) :
    get (applyAll given start) = get start := by
  induction given generalizing start with
  | nil => rfl
  | cons option given ih =>
    rw [applyAll, List.foldl_cons]
    exact (ih _).trans (happly option start)

theorem TextField.get_apply (field : TextField) (option : StartOption)
    (start : StartCommandOptions) :
    field.get (option.apply start) = (StartOption.text? field option).getD (field.get start) := by
  cases option with
  | text other value | integer other value | switch other value =>
    cases field <;> cases other <;> rfl
  | env value | dependsOn value | failureAction value | logMode value => cases field <;> rfl
  | log => cases field <;> rfl

theorem IntegerField.get_apply (field : IntegerField) (option : StartOption)
    (start : StartCommandOptions) :
    field.get (option.apply start) =
      (StartOption.integer? field option).getD (field.get start) := by
  cases option with
  | text other value | integer other value | switch other value =>
    cases field <;> cases other <;> rfl
  | env value | dependsOn value | failureAction value | logMode value => cases field <;> rfl
  | log => cases field <;> rfl

theorem SwitchField.get_apply (field : SwitchField) (option : StartOption)
    (start : StartCommandOptions) :
    field.get (option.apply start) = (StartOption.switch? field option).getD (field.get start) := by
  cases option with
  | text other value | integer other value | switch other value =>
    cases field <;> cases other <;> rfl
  | env value | dependsOn value | failureAction value | logMode value => cases field <;> rfl
  | log => cases field <;> rfl

section Fields

variable (option : StartOption) (start : StartCommandOptions)

theorem failureAction_apply : (option.apply start).failureAction =
    (StartOption.failureAction? option).getD start.failureAction := by
  cases option with
  | text other value | integer other value | switch other value => cases other <;> rfl
  | env value | dependsOn value | failureAction value | logMode value | log => rfl

theorem logMode_apply : (option.apply start).logMode =
    (StartOption.logMode? option).getD start.logMode := by
  cases option with
  | text other value | integer other value | switch other value => cases other <;> rfl
  | env value | dependsOn value | failureAction value | logMode value | log => rfl

theorem env_apply : (option.apply start).env =
    start.env ++ (StartOption.env? option).toList := by
  cases option with
  | text other value | integer other value | switch other value =>
    cases other <;> exact (List.append_nil _).symm
  | env value => rfl
  | dependsOn value | failureAction value | logMode value | log =>
    exact (List.append_nil _).symm

theorem dependsOn_apply : (option.apply start).dependsOn =
    start.dependsOn ++ (StartOption.dependsOn? option).toList := by
  cases option with
  | text other value | integer other value | switch other value =>
    cases other <;> exact (List.append_nil _).symm
  | dependsOn value => rfl
  | env value | failureAction value | logMode value | log =>
    exact (List.append_nil _).symm

theorem logModeExplicit_apply : (option.apply start).logModeExplicit =
    ((StartOption.logMode? option).isSome || start.logModeExplicit) := by
  cases option with
  | text other value | integer other value | switch other value => cases other <;> rfl
  | env value | dependsOn value | failureAction value | logMode value | log => rfl

theorem showLog_apply : (option.apply start).showLog =
    (decide (option = .log) || start.showLog) := by
  cases option with
  | text other value | integer other value | switch other value => cases other <;> rfl
  | env value | dependsOn value | failureAction value | logMode value | log => rfl

theorem name_apply : (option.apply start).name = start.name := by
  cases option with
  | text other value | integer other value | switch other value => cases other <;> rfl
  | env value | dependsOn value | failureAction value | logMode value | log => rfl

theorem create_apply : (option.apply start).create = start.create := by
  cases option with
  | text other value | integer other value | switch other value => cases other <;> rfl
  | env value | dependsOn value | failureAction value | logMode value | log => rfl

end Fields

theorem sets_applyAll (given : List StartOption) (name : String) :
    Sets given (applyAll given { name := name }) where
  text field := by
    have hdefault : field.get { name := name } = field.get {} := by cases field <;> rfl
    rw [get_applyAll field.get _ field.get_apply, hdefault]
  integer field := by
    have hdefault : field.get { name := name } = field.get {} := by cases field <;> rfl
    rw [get_applyAll field.get _ field.get_apply, hdefault]
  switch field := by
    have hdefault : field.get { name := name } = field.get {} := by cases field <;> rfl
    rw [get_applyAll field.get _ field.get_apply, hdefault]
  env := entries_applyAll _ _ env_apply given _
  dependsOn := entries_applyAll _ _ dependsOn_apply given _
  failureAction := get_applyAll _ _ failureAction_apply given _
  logMode := get_applyAll _ _ logMode_apply given _
  logModeExplicit := (flag_applyAll _ _ logModeExplicit_apply given _).trans (Bool.or_false _)
  showLog := (flag_applyAll _ _ showLog_apply given _).trans (Bool.or_false _)

theorem not_defines_iff (start : StartCommandOptions) : ¬ start.Defines ↔
    (∀ field : TextField, field.get start = field.get {}) ∧
      (∀ field : IntegerField, field.get start = field.get {}) ∧
      (∀ field : SwitchField, field.get start = field.get {}) ∧
      start.failureAction = .skip ∧ start.env = [] ∧ start.dependsOn = [] ∧
      start.logModeExplicit = false := by
  simp only [StartCommandOptions.Defines, not_or, not_not, Bool.not_eq_true, Bool.not_eq_false]
  constructor
  · rintro ⟨hcwd, hrunAs, henv, hdependsOn, hpty, hdaemon, hkill, hstart, haction, hheartbeat, hoom,
      hdelay, hmaxDelay, hwindow, hattempts, hreset, hmode, hdir, hfile, hsize, hcount⟩
    refine ⟨?_, ?_, ?_, haction, henv, hdependsOn, hmode⟩
    · intro field
      cases field with
      | cwd => exact hcwd
      | runAs => exact hrunAs
      | logDir => exact hdir
      | logFileName => exact hfile
    · intro field
      cases field with
      | killTimeoutSec => exact hkill
      | startTimeout => exact hstart
      | heartbeatTimeout => exact hheartbeat
      | oomScoreAdj => exact hoom
      | logMaxSizeKb => exact hsize
      | logArchiveCount => exact hcount
      | restartDelayMs => exact hdelay
      | restartMaxDelayMs => exact hmaxDelay
      | restartWindowMs => exact hwindow
      | restartMaxAttempts => exact hattempts
      | restartResetAfterMs => exact hreset
    · intro field
      cases field with
      | daemon => exact hdaemon
      | pty => exact hpty
  · rintro ⟨htext, hinteger, hswitch, haction, henv, hdependsOn, hmode⟩
    exact ⟨htext .cwd, htext .runAs, henv, hdependsOn, hswitch .pty, hswitch .daemon,
      hinteger .killTimeoutSec, hinteger .startTimeout, haction, hinteger .heartbeatTimeout,
      hinteger .oomScoreAdj, hinteger .restartDelayMs, hinteger .restartMaxDelayMs,
      hinteger .restartWindowMs, hinteger .restartMaxAttempts, hinteger .restartResetAfterMs, hmode,
      htext .logDir, htext .logFileName, hinteger .logMaxSizeKb, hinteger .logArchiveCount⟩

theorem eq_default_iff {value default : α} {last : Option α} (hfield : value = last.getD default) :
    value = default ↔ ∀ given, last = some given → given = default := by
  rw [hfield]
  cases last with
  | none =>
    constructor
    · intro _ given hsome
      cases hsome
    · exact fun _ => rfl
  | some given =>
    constructor
    · intro hsame other hsome
      cases hsome
      exact hsame
    · exact fun hall => hall given rfl

theorem Sets.defines_iff (h : Sets given start) : ¬ start.Defines ↔ Harmless given := by
  rw [not_defines_iff]
  constructor
  · rintro ⟨htext, hinteger, hswitch, haction, henv, hdependsOn, hmode⟩
    rw [h.env] at henv
    rw [h.dependsOn] at hdependsOn
    rw [h.logModeExplicit] at hmode
    exact {
      text := fun field => (eq_default_iff (h.text field)).1 (htext field)
      integer := fun field => (eq_default_iff (h.integer field)).1 (hinteger field)
      switch := fun field => (eq_default_iff (h.switch field)).1 (hswitch field)
      failureAction := (eq_default_iff h.failureAction).1 haction
      env := by
        intro entry hentry
        have hnone := List.filterMap_eq_nil_iff.1 henv _ hentry
        cases hnone
      dependsOn := by
        intro name hname
        have hnone := List.filterMap_eq_nil_iff.1 hdependsOn _ hname
        cases hnone
      logMode := by
        intro mode hgiven
        have hnone := List.any_eq_false.1 hmode _ hgiven
        exact hnone rfl }
  · intro hharmless
    refine ⟨?_, ?_, ?_, ?_, ?_, ?_, ?_⟩
    · exact fun field => (eq_default_iff (h.text field)).2 (hharmless.text field)
    · exact fun field => (eq_default_iff (h.integer field)).2 (hharmless.integer field)
    · exact fun field => (eq_default_iff (h.switch field)).2 (hharmless.switch field)
    · exact (eq_default_iff h.failureAction).2 hharmless.failureAction
    · rw [h.env, List.filterMap_eq_nil_iff]
      intro option hoption
      cases option with
      | env entry => exact absurd hoption (hharmless.env entry)
      | _ => rfl
    · rw [h.dependsOn, List.filterMap_eq_nil_iff]
      intro option hoption
      cases option with
      | dependsOn name => exact absurd hoption (hharmless.dependsOn name)
      | _ => rfl
    · rw [h.logModeExplicit, List.any_eq_false]
      intro option hoption
      cases option with
      | logMode mode => exact absurd hoption (hharmless.logMode mode)
      | _ => exact Bool.false_ne_true

theorem splitOptions_flatten (items : List String) (h : (splitOptions items).2 = none) :
    (splitOptions items).1.flatten = items := by
  fun_induction splitOptions items with
  | case1 => rfl
  | case2 rest => cases h
  | case3 option hne htakes => rfl
  | case4 option hne htakes value rest ih => rw [List.flatten_cons, ih h]; rfl
  | case5 option rest hne htakes ih => rw [List.flatten_cons, ih h]; rfl

theorem splitOptions_log (h : ∀ item ∈ items, item = "--log") :
    splitOptions items = (items.map fun item => [item], none) := by
  induction items with
  | nil => rfl
  | cons item items ih =>
    have hrest := ih fun item hitem => h item (List.mem_cons_of_mem _ hitem)
    have hflag : ¬ takesValue "--log" = true := by
      rw [takesValue_eq (startRule_log.2 rfl)]
      exact Bool.false_ne_true
    have hne : "--log" ≠ "--" := by decide
    rw [h item List.mem_cons_self, splitOptions.eq_def]
    dsimp only
    rw [if_neg hne, if_neg hflag, hrest]
    rfl

theorem Spells.log_iff : Spells given ["--log"] ↔ given = .log := by
  constructor
  · intro h
    cases h with
    | switch hrule => cases hrule.symm.trans (startRule_log.2 rfl)
    | log => rfl
  · rintro rfl
    exact .log

theorem Spells.eq_log (h : Spells .log words) : words = ["--log"] := by
  cases h
  rfl

theorem exists_spells (words : List (List String))
    (h : ∀ group ∈ words, ∃ option, Spells option group) :
    ∃ given, List.Forall₂ Spells given words := by
  induction words with
  | nil => exact ⟨[], .nil⟩
  | cons group words ih =>
    obtain ⟨option, hoption⟩ := h group List.mem_cons_self
    obtain ⟨given, hgiven⟩ := ih fun group hgroup => h group (List.mem_cons_of_mem _ hgroup)
    exact ⟨option :: given, .cons hoption hgiven⟩

theorem spells_of_mem (h : List.Forall₂ Spells given words) (hgroup : group ∈ words) :
    ∃ option ∈ given, Spells option group := by
  induction h with
  | nil => cases hgroup
  | cons hspells _ ih =>
    rcases List.mem_cons.1 hgroup with rfl | hgroup
    · exact ⟨_, List.mem_cons_self, hspells⟩
    · obtain ⟨option, hoption, hspells⟩ := ih hgroup
      exact ⟨option, List.mem_cons_of_mem _ hoption, hspells⟩

theorem words_of_mem (h : List.Forall₂ Spells given words) (hoption : option ∈ given) :
    ∃ group ∈ words, Spells option group := by
  induction h with
  | nil => cases hoption
  | cons hspells _ ih =>
    rcases List.mem_cons.1 hoption with rfl | hoption
    · exact ⟨_, List.mem_cons_self, hspells⟩
    · obtain ⟨group, hgroup, hspells⟩ := ih hoption
      exact ⟨group, List.mem_cons_of_mem _ hgroup, hspells⟩

theorem eq_log_of_items (h : ∀ item ∈ items, item = "--log")
    (hgiven : List.Forall₂ Spells given (splitOptions items).1) (hoption : option ∈ given) :
    option = .log := by
  rw [splitOptions_log h] at hgiven
  obtain ⟨group, hgroup, hspells⟩ := words_of_mem hgiven hoption
  obtain ⟨item, hitem, rfl⟩ := List.mem_map.1 hgroup
  rw [h item hitem] at hspells
  exact Spells.log_iff.1 hspells

theorem items_eq_log (hend : (splitOptions items).2 = none)
    (hgiven : List.Forall₂ Spells given (splitOptions items).1)
    (h : ∀ option ∈ given, option = .log) (hitem : item ∈ items) : item = "--log" := by
  rw [← splitOptions_flatten items hend] at hitem
  obtain ⟨group, hgroup, hitem⟩ := List.mem_flatten.1 hitem
  obtain ⟨option, hoption, hspells⟩ := spells_of_mem hgiven hgroup
  rw [h option hoption] at hspells
  rw [hspells.eq_log] at hitem
  exact List.mem_singleton.1 hitem

theorem parseStart_eq_ok (hnames : Names args name items) :
    parseStart args = .ok start ↔ parseOptions items { name := name } = .ok start ∧
      ¬ (start.create = false ∧ start.Defines) := by
  obtain ⟨program, command, rfl, hname, hdash⟩ := hnames
  rw [parseStart, if_neg (not_or_intro hname hdash)]
  cases parseOptions items { name := name } with
  | error message =>
    constructor
    · intro h
      cases h
    · rintro ⟨h, -⟩
      cases h
  | ok result =>
    dsimp only
    split
    · rename_i hdefines
      constructor
      · intro h
        cases h
      · rintro ⟨h, hnot⟩
        cases h
        exact absurd hdefines hnot
    · rename_i hdefines
      constructor
      · intro h
        cases h
        exact ⟨rfl, hdefines⟩
      · rintro ⟨h, -⟩
        cases h
        rfl

theorem names_of_accepted (h : Accepted args) : ∃ name items, Names args name items := by
  obtain ⟨start, hstart⟩ := h
  unfold parseStart at hstart
  split at hstart
  · rename_i program command name items
    split at hstart
    · cases hstart
    · rename_i hname
      rw [not_or] at hname
      exact ⟨name, items, program, command, rfl, hname.1, hname.2⟩
  · cases hstart

/-- Without a `--` the options must be well formed, and may only say what holds anyway. -/
theorem accepted_configured (hnames : Names args name items)
    (hend : (splitOptions items).2 = none) :
    Accepted args ↔ ∃ given, List.Forall₂ Spells given (splitOptions items).1 ∧ Harmless given := by
  constructor
  · rintro ⟨start, hstart⟩
    obtain ⟨hoptions, hdefines⟩ := (parseStart_eq_ok hnames).1 hstart
    obtain ⟨given, hgiven, hends⟩ := (parseOptions_eq_ok items _ start).1 hoptions
    rw [hend] at hends
    cases hends
    have hcreate : (applyAll given { name := name }).create = false :=
      kept_applyAll (·.create) create_apply given _
    exact ⟨given, hgiven, (sets_applyAll given name).defines_iff.1 fun h => hdefines ⟨hcreate, h⟩⟩
  · rintro ⟨given, hgiven, hharmless⟩
    refine ⟨applyAll given { name := name }, (parseStart_eq_ok hnames).2 ⟨?_, ?_⟩⟩
    · apply (parseOptions_eq_ok items _ _).2
      refine ⟨given, hgiven, ?_⟩
      rw [hend]
      rfl
    · exact fun h => (sets_applyAll given name).defines_iff.2 hharmless h.2

theorem accepted_defined (hnames : Names args name items)
    (hend : (splitOptions items).2 = some after) :
    parseStart args = .ok start ↔ ∃ given executable rest,
      List.Forall₂ Spells given (splitOptions items).1 ∧ after = executable :: rest ∧
        start = { applyAll given { name := name } with
          create := true, executable := executable, args := rest } := by
  rw [parseStart_eq_ok hnames, parseOptions_eq_ok, hend]
  constructor
  · rintro ⟨⟨given, hgiven, hends⟩, -⟩
    cases after with
    | nil => exact hends.elim
    | cons executable rest => exact ⟨given, executable, rest, hgiven, rfl, hends⟩
  · rintro ⟨given, executable, rest, hgiven, rfl, rfl⟩
    exact ⟨⟨given, hgiven, rfl⟩, fun h => Bool.noConfusion h.1⟩

theorem Sets.with_definition (h : Sets given start) (executable : String) (args : List String) :
    Sets given { start with create := true, executable := executable, args := args } where
  text field := by
    rw [← h.text field]
    cases field <;> rfl
  integer field := by
    rw [← h.integer field]
    cases field <;> rfl
  switch field := by
    rw [← h.switch field]
    cases field <;> rfl
  env := h.env
  dependsOn := h.dependsOn
  failureAction := h.failureAction
  logMode := h.logMode
  logModeExplicit := h.logModeExplicit
  showLog := h.showLog

theorem lastValue_log (select : StartOption → Option α) (hselect : select .log = none)
    (h : ∀ option ∈ given, option = .log) : lastValue select given = none := by
  have hnone : given.filterMap select = [] := by
    apply List.filterMap_eq_nil_iff.2
    intro option hoption
    rw [h option hoption]
    exact hselect
  rw [lastValue, hnone]
  rfl

theorem harmless_log (h : ∀ option ∈ given, option = .log) : Harmless given where
  text field value hvalue := by
    rw [lastValue_log _ rfl h] at hvalue
    cases hvalue
  integer field value hvalue := by
    rw [lastValue_log _ rfl h] at hvalue
    cases hvalue
  switch field value hvalue := by
    rw [lastValue_log _ rfl h] at hvalue
    cases hvalue
  failureAction action haction := by
    rw [lastValue_log _ rfl h] at haction
    cases haction
  env entry hentry := StartOption.noConfusion (h _ hentry)
  dependsOn name hname := StartOption.noConfusion (h _ hname)
  logMode mode hmode := StartOption.noConfusion (h _ hmode)

/-- The command keeps to its grammar unless definition options say what holds anyway. -/
theorem startGrammar_iff (args : List String) : StartGrammar args ↔ ¬ SilentDefinition args := by
  constructor
  · rintro hgrammar ⟨name, items, given, hnames, hend, hgiven, ⟨option, hoption, hne⟩, hharmless⟩
    have haccepted := (accepted_configured hnames hend).2 ⟨given, hgiven, hharmless⟩
    have hlog := (hgrammar.configured name items hnames hend).1 haccepted
    exact hne (eq_log_of_items hlog hgiven hoption)
  · intro hsilent
    refine ⟨names_of_accepted, ?_, ?_, ?_⟩
    · intro name items hnames hend
      rw [accepted_configured hnames hend]
      constructor
      · rintro ⟨given, hgiven, hharmless⟩ item hitem
        apply items_eq_log hend hgiven _ hitem
        by_contra hother
        push Not at hother
        exact hsilent ⟨name, items, given, hnames, hend, hgiven, hother, hharmless⟩
      · intro hlog
        have hspelled : ∀ group ∈ (splitOptions items).1, ∃ option, Spells option group := by
          rw [splitOptions_log hlog]
          intro group hgroup
          obtain ⟨item, hitem, rfl⟩ := List.mem_map.1 hgroup
          rw [hlog item hitem]
          exact ⟨.log, .log⟩
        obtain ⟨given, hgiven⟩ := exists_spells _ hspelled
        exact ⟨given, hgiven, harmless_log fun _ => eq_log_of_items hlog hgiven⟩
    · intro name items after hnames hend
      constructor
      · rintro ⟨start, hstart⟩
        obtain ⟨given, executable, rest, hgiven, rfl, -⟩ := (accepted_defined hnames hend).1 hstart
        refine ⟨?_, List.cons_ne_nil _ _⟩
        intro group hgroup
        obtain ⟨option, -, hspells⟩ := spells_of_mem hgiven hgroup
        exact ⟨option, hspells⟩
      · rintro ⟨hspelled, hafter⟩
        obtain ⟨given, hgiven⟩ := exists_spells _ hspelled
        obtain ⟨executable, rest, rfl⟩ := List.exists_cons_of_ne_nil hafter
        exact ⟨_, (accepted_defined hnames hend).2 ⟨given, executable, rest, hgiven, rfl, rfl⟩⟩
    · intro name items after start hnames hend hstart
      obtain ⟨given, executable, rest, hgiven, rfl, rfl⟩ :=
        (accepted_defined hnames hend).1 hstart
      have hname : (applyAll given { name := name }).name = name :=
        kept_applyAll (·.name) name_apply given _
      exact ⟨hname, rfl, given, hgiven, (sets_applyAll given name).with_definition executable rest⟩

/-- `pm start configured --no-pty` starts the configured program as it is. -/
theorem startGrammar_fails : ¬ StartGrammar ["pm", "start", "configured", "--no-pty"] := by
  intro hgrammar
  have hnames : Names ["pm", "start", "configured", "--no-pty"] "configured" ["--no-pty"] :=
    ⟨"pm", "start", rfl, by decide, by decide⟩
  have haccepted : Accepted ["pm", "start", "configured", "--no-pty"] := ⟨_, rfl⟩
  have hlog := (hgrammar.configured _ _ hnames rfl).1 haccepted "--no-pty" List.mem_cons_self
  exact absurd hlog (by decide)

end PmTiny.Cli
