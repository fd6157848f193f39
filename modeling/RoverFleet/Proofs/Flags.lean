import RoverFleet.Files.Tree
import RoverFleet.Proofs.Leaves
import RoverFleet.Proofs.Libraries

/-!
# Flags of the command

A run always gives all four settings of the flags, so the flags alone decide on them: what lower
sources say about these settings is neither used nor checked. All other settings are the same
whatever the flags are.
-/
namespace RoverFleet

section Lookup
variable {α β : Type} [BEq α] [LawfulBEq α]

theorem lookup_filter (p : α → Bool) (l : List (α × β)) {k : α} (hk : p k = true) :
    (l.filter fun e => p e.1).lookup k = l.lookup k := by
  induction l with
  | nil => rfl
  | cons e rest ih =>
    obtain ⟨key, v⟩ := e
    by_cases he : k = key
    · subst he
      simp [hk]
    · have hne : (k == key) = false := beq_eq_false_iff_ne.mpr he
      rw [List.filter_cons, List.lookup_cons, hne]
      split_ifs
      · rw [List.lookup_cons, hne, ih]
      · exact ih

end Lookup

/-- The setting of a flag. -/
def CommandLine.Flag.leaf : Flag → Settings.Leaf
  | .verbose => .verbose
  | .json => .json
  | .debug => .debug
  | .logJson => .logJson

namespace Settings
open Files CommandLine

/-- The keys that name no setting. -/
def unknown (fields : Fields) : List String := fields.keys.filter (!isKnown ·)

theorem unknown_put {key : String} (hkey : isKnown key = true) (v : Value) (fields : Fields) :
    unknown (Fields.put key v fields) = unknown fields := by
  induction fields with
  | nil => simp [unknown, Fields.put, Fields.keys, hkey]
  | cons f rest ih =>
    unfold unknown Fields.keys at ih ⊢
    rw [Fields.put]
    split_ifs with hname
    · rfl
    · rw [List.map_cons, List.map_cons, List.filter_cons, List.filter_cons, ih]

theorem unknown_overlay {upper : Fields} (h : ∀ k ∈ upper.keys, isKnown k = true)
    (lower : Fields) : unknown (upper.overlay lower) = unknown lower := by
  induction upper generalizing lower with
  | nil => rfl
  | cons f rest ih =>
    rw [Fields.keys, List.map_cons, List.forall_mem_cons] at h
    rw [Fields.overlay, List.foldl_cons, ← Fields.overlay, ih h.2, unknown_put h.1]

/-- The checks of everything but the settings of the flags. -/
def checkOthers (k : Rules) (fields : Fields) : Checked (String × (Bool × ℤ) × Unit) :=
  (checkSection fields "input" (checkInput k)).both <|
  (checkSection fields "output" (checkOutput k)).both <|
  checkNames fields

theorem checkOthers_congr (k : Rules) {fields fields' : Fields}
    (hsections : ∀ home ∈ sectionNames, fields.lookup home = fields'.lookup home)
    (hunknown : unknown fields = unknown fields') :
    checkOthers k fields = checkOthers k fields' := by
  have hnames : checkNames fields = checkNames fields' := by
    unfold unknown Fields.keys at hunknown
    rw [checkNames, checkNames, hunknown]
  simp only [checkOthers, checkSection, hnames, hsections "input" (by decide),
    hsections "output" (by decide)]

section Variables
open Variables

/-- The environment without the variables of the flags. -/
def withoutFlags (environment : List (String × String)) : List (String × String) :=
  environment.filter fun v => !Flag.all.any fun f => lowered v.1 = f.leaf.variableName

def Target.isFlag (t : Target) : Bool := Flag.all.any fun f => t = f.leaf.target

theorem givens_withoutFlags (environment : List (String × String)) :
    givens (withoutFlags environment) = (givens environment).filter (!·.1.isFlag) := by
  rw [givens, givens, withoutFlags, List.filterMap_filter, List.filter_filterMap]
  refine List.filterMap_congr fun v _ => ?_
  simp only [← ofName?_variableName]
  cases Target.ofName? v.1 <;> simp [Target.isFlag, Option.filter]

theorem last?_filter (p : Target → Bool) {t : Target} (ht : p t = true) (gs : Givens) :
    last? (gs.filter fun g => p g.1) t = last? gs t := by
  rw [last?, last?, ← List.filter_reverse, lookup_filter p _ ht]

/-- Flags have no keys. -/
theorem sectionKeys_filter (gs : Givens) (home : String) :
    sectionKeys (gs.filter (!·.1.isFlag)) home = sectionKeys gs home := by
  rw [sectionKeys, sectionKeys, List.foldl_filter]
  congr 1
  funext keys g
  split_ifs with hg
  · rfl
  · obtain ⟨t, text⟩ := g
    have hplain : ∃ name, t = .plain name := by
      obtain ⟨f, -, hf⟩ : ∃ f ∈ Flag.all, t = f.leaf.target := by simpa [Target.isFlag] using hg
      exact ⟨f.setting, by cases f <;> exact hf⟩
    obtain ⟨name, rfl⟩ := hplain
    rfl

theorem readSection_withoutFlags (environment : List (String × String)) (home : String) :
    readSection (givens (withoutFlags environment)) home =
      readSection (givens environment) home := by
  have hsection : (!(Target.wholeSection home).isFlag) = true := by
    simp [Target.isFlag, Flag.all, Flag.leaf, Leaf.target, Leaf.home?]
  rw [givens_withoutFlags, readSection, readSection, sectionKeys_filter,
    last?_filter (!·.isFlag) hsection]

theorem lookup_plainFields {home : String} (hhome : home ∈ sectionNames) (gs : Givens) :
    (plainFields gs).lookup home = none := by
  have hne : ∀ home ∈ sectionNames, home ∉ plainNames := by decide
  refine Fields.lookup_eq_none fun hmem => hne home hhome ?_
  obtain ⟨f, hf, rfl⟩ := List.mem_map.mp hmem
  obtain ⟨name, hname, hf⟩ := List.mem_filterMap.mp hf
  obtain ⟨text, -, rfl⟩ := Option.map_eq_some_iff.mp hf
  exact hname

theorem fields_keys {environment : List (String × String)} {vars : Fields}
    (h : Variables.fields environment = .ok vars) :
    vars.keys.Nodup ∧ ∀ k ∈ vars.keys, isKnown k = true := by
  cases hsection : malformedSection? environment with
  | some home => cases (fields_malformed hsection).symm.trans h
  | none =>
    obtain ⟨vars', hok, hnodup, hknown, -⟩ := fields_ok hsection
    cases hok.symm.trans h
    exact ⟨hnodup, hknown⟩

/-- The sections that the variables give. -/
def sectionFields (environment : List (String × String)) : Except BadVariable Fields := do
  let sections ← sectionNames.mapM fun name =>
    return (name, ← readSection (givens environment) name)
  return sections.filterMap fun s => s.2.map (s.1, ·)

theorem fields_eq (environment : List (String × String)) :
    Variables.fields environment =
      (sectionFields environment).map (plainFields (givens environment) ++ ·) := by
  simp only [Variables.fields, sectionFields]
  cases (sectionNames.mapM fun name =>
    return (name, ← readSection (givens environment) name) : Except BadVariable _) <;> rfl

/-- The variables of the flags do not matter to the other checks. -/
theorem checkOthers_withoutFlags (k : Rules) (environment : List (String × String))
    (fromFile : Fields) :
    (Variables.fields (withoutFlags environment)).map (fun vars =>
        checkOthers k (vars.overlay fromFile)) =
      (Variables.fields environment).map fun vars => checkOthers k (vars.overlay fromFile) := by
  have hsections : sectionFields (withoutFlags environment) = sectionFields environment := by
    simp only [sectionFields, readSection_withoutFlags]
  have hkeys := @fields_keys (withoutFlags environment)
  have hkeys' := @fields_keys environment
  rw [fields_eq] at hkeys hkeys'
  rw [fields_eq, fields_eq, hsections]
  rw [hsections] at hkeys
  generalize sectionFields environment = sections at hkeys hkeys' ⊢
  cases sections with
  | error e => rfl
  | ok sections =>
    obtain ⟨hnodup, hknown⟩ := hkeys rfl
    obtain ⟨hnodup', hknown'⟩ := hkeys' rfl
    refine congrArg Except.ok (checkOthers_congr k (fun home hhome => ?_) ?_)
    · rw [Fields.lookup_overlay hnodup, Fields.lookup_overlay hnodup', List.lookup_append,
        List.lookup_append, lookup_plainFields hhome, lookup_plainFields hhome]
    · rw [unknown_overlay hknown, unknown_overlay hknown']

end Variables

/-- The system without the variables of the flags. -/
def unflagged (sys : System) : System := { sys with environment := withoutFlags sys.environment }

/-- Loads all settings but those of the flags, which are off. -/
def loadOthers (k : Rules) (sys : System) (given : Option String) (base : Option Path) :
    Except Failure Settings := do
  let file ← (chooseFile? sys given base).mapError .path
  let base ← (base.elim sys.current .ok).mapError .path
  let fromFile ← fileFields sys file
  let checked ← ((Variables.fields sys.environment).map fun vars =>
    checkOthers k (vars.overlay fromFile)).mapError .badVariable
  let (encoding, (verboseOutput, width), _) ← checked.mapError .invalid
  return { base, file, encoding, verboseOutput, width }

section Load
variable {k : Rules} (sys : System) (given : Option String) (base : Option Path)

theorem loadOthers_ok {sys : System} {given : Option String} {base : Option Path} {s : Settings}
    (hs : loadOthers k sys given base = .ok s) :
    chooseFile? sys given base = .ok s.file ∧
      ∃ fromFile, fileFields sys s.file = .ok fromFile := by
  obtain ⟨file, hfile, hs⟩ := bind_ok_iff.mp hs
  obtain ⟨start, -, hs⟩ := bind_ok_iff.mp hs
  obtain ⟨fromFile, hfromFile, hs⟩ := bind_ok_iff.mp hs
  obtain ⟨checked, -, hs⟩ := bind_ok_iff.mp hs
  obtain ⟨_, -, hs⟩ := bind_ok_iff.mp hs
  cases hs
  exact ⟨mapError_ok_iff.mp hfile, fromFile, hfromFile⟩

theorem firstFile?_unflagged (directories : List Location) :
    firstFile? (unflagged sys) directories = firstFile? sys directories := by
  induction directories with
  | nil => rfl
  | cons directory rest ih =>
    rw [firstFile?, firstFile?, ih]
    rfl

theorem lookup?_unflagged {name : String}
    (hname : Flag.all.all (fun f => lowered name ≠ f.leaf.variableName) = true) :
    (unflagged sys).lookup? name = sys.lookup? name :=
  lookup_filter (fun name => !Flag.all.any fun f => lowered name = f.leaf.variableName) _
    (by simpa using hname)

theorem chooseFile?_unflagged : chooseFile? (unflagged sys) given base =
    chooseFile? sys given base := by
  have hvariable :
      Flag.all.all (fun f => lowered fileVariable ≠ f.leaf.variableName) = true := by
    decide +kernel
  have hfind : findFile? (unflagged sys) base = findFile? sys base := by
    simp only [findFile?, findFile?.nearest, firstFile?_unflagged,
      lookup?_unflagged sys hvariable]
    rfl
  unfold chooseFile?
  rw [hfind]
  rfl

theorem loadOthers_unflagged :
    loadOthers k (unflagged sys) given base = loadOthers k sys given base := by
  unfold loadOthers
  rw [chooseFile?_unflagged]
  simp only [unflagged, checkOthers_withoutFlags]
  rfl

end Load

end Settings

namespace CommandLine
open Settings Files

namespace Order

theorem settings_keys (o : Order) : o.settings.keys = Flag.all.map Flag.setting := by
  simp [settings, Fields.keys]

theorem nodup_settings_keys (o : Order) : o.settings.keys.Nodup := by
  rw [settings_keys]
  decide

theorem lookup_settings (o : Order) (f : Flag) :
    o.settings.lookup f.setting = some (.bool (o.flags.contains f)) := by
  cases f <;> rfl

/-- The settings with the flags of the order. -/
def flagged (o : Order) (s : Settings) : Settings :=
  { s with
    json := o.flags.contains .json
    verbose := o.flags.contains .verbose
    debug := o.flags.contains .debug
    logJson := o.flags.contains .logJson }

section Rules
variable {k : Rules} (hk : k.Documented) (o : Order)

theorem checkOthers_overlay (lower : Fields) :
    checkOthers k (o.settings.overlay lower) = checkOthers k lower := by
  have hsections : ∀ home ∈ sectionNames, home ∉ Flag.all.map Flag.setting := by decide
  have hknown : ∀ key ∈ Flag.all.map Flag.setting, isKnown key = true := by decide
  refine checkOthers_congr k (fun home hhome => ?_) (unknown_overlay ?_ lower)
  · have hnone : o.settings.lookup home = none :=
      Fields.lookup_eq_none (o.settings_keys ▸ hsections home hhome)
    rw [Fields.lookup_overlay o.nodup_settings_keys, hnone]
    rfl
  · rw [settings_keys]
    exact hknown

include hk

theorem checkFlag_overlay (lower : Fields) (f : Flag) :
    checkFlag k (o.settings.overlay lower) f.setting = .ok (o.flags.contains f) := by
  rw [checkFlag, Validation.optional, Fields.lookup_overlay o.nodup_settings_keys,
    lookup_settings]
  simp only [Option.map_some, Option.some_or, Fields.cover, Validation.check, hk.bool]
  rfl

/-- With the flags over other fields, these only have to pass the other checks. -/
theorem ofFields_overlay (base : Path) (file : Option Path) (lower : Fields) :
    ofFields k base file (o.settings.overlay lower) = (checkOthers k lower).map fun r =>
      o.flagged { base, file, encoding := r.1, verboseOutput := r.2.1.1, width := r.2.1.2 } := by
  have hflag := o.checkFlag_overlay hk lower
  have hjson := hflag .json
  have hverbose := hflag .verbose
  have hdebug := hflag .debug
  have hlogJson := hflag .logJson
  simp only [Flag.setting] at hjson hverbose hdebug hlogJson
  rw [ofFields, hjson, hverbose, hdebug, hlogJson, ← checkOthers, checkOthers_overlay]
  cases checkOthers k lower <;> rfl

/-- The flags have no influence on the other settings, and nothing else has any on theirs. -/
theorem load_settings (sys : System) (given : Option String) (base : Option Path) :
    Settings.load k sys given base o.settings = (loadOthers k sys given base).map o.flagged := by
  simp only [Settings.load, loadOthers, hk.fieldsOf, bind, Except.bind]
  cases (chooseFile? sys given base).mapError Failure.path with
  | error f => rfl
  | ok file =>
    dsimp only
    cases (base.elim sys.current .ok).mapError Failure.path with
    | error f => rfl
    | ok start =>
      dsimp only
      cases fileFields sys file with
      | error f => rfl
      | ok fromFile =>
        dsimp only
        cases Variables.fields sys.environment with
        | error b => rfl
        | ok vars =>
          simp only [o.ofFields_overlay hk, Except.map, Except.mapError]
          cases checkOthers k (vars.overlay fromFile) <;> rfl

end Rules

/-- For the flags that are not given, the settings are those of the variables, or else of the file,
or else the defaults. -/
def Chained (k : Rules) (o : Order) (environment : List (String × String)) (fromFile : Fields)
    (s : Settings) : Prop :=
  ∀ f ∉ o.flags,
    f.leaf.outcome k (f.leaf.selected [] environment fromFile) = .ok (f.leaf.valueIn s)

end Order

theorem valueIn_flagged (o : Order) (s : Settings) (f : Flag) :
    f.leaf.valueIn (o.flagged s) = .bool (o.flags.contains f) := by
  cases f <;> rfl

section Documented
variable {L : Libraries} (hL : L.Documented)
include hL

/-- A console does not heed the variables of the flags. -/
theorem Libraries.Documented.console_withoutFlags (environment : List (String × String)) :
    L.console (withoutFlags environment) = L.console environment := by
  have hprefix : ∀ f ∈ Flag.all,
      Target.marker.isPrefixOf f.leaf.variableName.toList = true := by decide +kernel
  have hown (name : String) (h : isOwn name = false) (f : Flag) (hf : f ∈ Flag.all) :
      lowered name ≠ f.leaf.variableName := by
    intro hname
    rw [isOwn, ← String.toList_ofList (l := Text.lowerAscii name.toList), ← lowered, hname,
      hprefix f hf] at h
    cases h
  have hfilter : (withoutFlags environment).filter (!isOwn ·.1) =
      environment.filter (!isOwn ·.1) := by
    rw [withoutFlags, List.filter_filter]
    refine List.filter_congr fun v _ => ?_
    cases h : isOwn v.1 with
    | true => rfl
    | false => simpa using hown v.1 h
  rw [← hL.foreign, hfilter, hL.foreign]

theorem Outcome.ofSettings_unflagged (sys : System) (time file : String) (s : Settings) :
    ofSettings L (unflagged sys) time file s = ofSettings L sys time file s := by
  have hformat (r : Report) : L.format (unflagged sys) r s = L.format sys r s :=
    congrArg (r.format · (formatOf s)) (hL.console_withoutFlags sys.environment)
  have hreport (log : String) (r : Report) :
      ofReport L (unflagged sys) log r s = ofReport L sys log r s := by
    rw [ofReport, ofReport, hformat]
    rfl
  have hsimulation (simulation : Simulation) :
      ofSimulation L (unflagged sys) s time simulation = ofSimulation L sys s time simulation := by
    simp only [ofSimulation, hreport]
    rfl
  simp only [ofSettings, hsimulation]
  rfl

/-- The variables of the flags have no influence on any run. -/
theorem run_unflagged {sys : System} (hcompletion : asksCompletion sys = false) (time : String)
    (arguments : List String) :
    run L (unflagged sys) time arguments = run L sys time arguments := by
  have hlookup : asksCompletion (unflagged sys) = false := by
    rw [asksCompletion, lookup?_unflagged sys (by decide +kernel)]
    exact hcompletion
  rw [run, run, hlookup, hcompletion]
  cases L.request arguments with
  | error lines => rfl
  | ok request =>
    cases request with
    | page p => rfl
    | run o =>
      dsimp only
      simp only [Outcome.ofOrder, o.load_settings hL.rules, loadOthers_unflagged,
        Outcome.ofSettings_unflagged hL]
      rfl

/-- In a run each flag is on exactly if it is given, whatever the variables and the file say, and
the format is the one that the flags ask for. The sources below the flags are heeded for the flags
that are not given exactly if they leave them all off. -/
theorem run_flags {sys : System} {arguments : List String} {o : Order} {s : Settings}
    (hread : Request.read arguments = .ok (.run o))
    (hload : Settings.load L.rules sys o.config none o.settings = .ok s) :
    (∀ f : Flag, f.leaf.valueIn s = .bool (o.flags.contains f)) ∧
    (∃ fromFile, chooseFile? sys o.config none = .ok s.file ∧
      fileFields sys s.file = .ok fromFile ∧
      (o.Chained L.rules sys.environment fromFile s ↔ ∀ f ∉ o.flags,
        f.leaf.outcome L.rules (f.leaf.selected [] sys.environment fromFile) =
          .ok (.bool false))) ∧
    (formatOf s).json = o.flags.contains .json ∧
    (formatOf s).verbose = (o.flags.contains .verbose || s.verboseOutput) ∧
    (asksCompletion sys = false → ∀ time,
      run L sys time arguments = Outcome.ofSettings L sys time o.file s ∧
      run L { sys with environment := withoutFlags sys.environment } time arguments =
        run L sys time arguments) := by
  have hothers := (o.load_settings hL.rules sys o.config none).symm.trans hload
  cases hs : loadOthers L.rules sys o.config none with
  | error f => simp [hs, Except.map] at hothers
  | ok s' =>
    obtain rfl : o.flagged s' = s := by simpa [hs, Except.map] using hothers
    obtain ⟨hchoose, fromFile, hfile⟩ := loadOthers_ok hs
    have hvalue := valueIn_flagged o s'
    refine ⟨hvalue, ⟨fromFile, hchoose, hfile, forall₂_congr fun f hf => ?_⟩, rfl, rfl,
      fun hcompletion time => ⟨?_, run_unflagged hL hcompletion time arguments⟩⟩
    · rw [hvalue, List.contains_eq_mem, decide_eq_false hf]
    · simp [run, hcompletion, hL.request_ok_iff.mpr hread, Outcome.ofOrder, hload]

end Documented

/-- A script, and a variable that asks for JSON. -/
def jsonByVariable : Host :=
  ⟨⟨[(["f"], .file (Codec.Utf8.encode "5 5\n1 2 N\nLMLMLMLMM\n".toList))]⟩, [],
    [("ROVERCTL_JSON_OUTPUT", "true")]⟩

theorem outcome_jsonByVariable :
    Leaf.json.outcome .standard (Leaf.json.selected [] jsonByVariable.environment []) =
      .ok (.bool true) := by
  have hgiven : Variables.given? jsonByVariable.environment Leaf.json.variableName =
      some "true" := by decide +kernel
  have hread : Validation.boolOfText "true" = .ok true := by decide +kernel
  have hselected : Leaf.json.selected [] jsonByVariable.environment [] =
      some (.string "true") := by
    simp [Leaf.selected, Leaf.inVariables, Leaf.home?, Leaf.inFields, hgiven]
  rw [hselected]
  exact congrArg (Except.map Value.bool) hread

/-- The variable is not heeded. -/
theorem run_jsonByVariable :
    let o : Order := ⟨"f", [], none⟩
    ∃ s, Settings.load .standard jsonByVariable none none o.settings = .ok s ∧ s.json = false ∧
      ¬ o.Chained .standard jsonByVariable.environment [] s ∧
      (run .standard jsonByVariable "" ["f"]).output = "1 3 N\n" := by
  intro o
  have hread : Request.read ["f"] = .ok (.run o) := by decide +kernel
  have hload : Settings.load .standard jsonByVariable none none o.settings =
      .ok { base := jsonByVariable.directory.toPath, file := none } := by decide +kernel
  obtain ⟨hflags, ⟨fromFile, -, hfile, hchained⟩, -⟩ :=
    run_flags Libraries.standard_documented hread hload
  obtain rfl : [] = fromFile := Except.ok.inj hfile
  refine ⟨_, hload, Value.bool.inj (hflags .json), fun hall => ?_, by decide +kernel⟩
  cases outcome_jsonByVariable.symm.trans (hchained.mp hall .json (by decide))

end CommandLine

end RoverFleet
