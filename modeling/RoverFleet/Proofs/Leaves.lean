import RoverFleet.Proofs.Environment
import RoverFleet.Proofs.Rereading
import RoverFleet.Settings.Load

/-!
# Settings are chosen leaf by leaf

A leaf is a plain setting or a key of a section. The highest source that gives a leaf decides it:
the flags, then the variables, then the file, then its default. What lower sources say about it is
neither used nor checked.
-/
namespace RoverFleet.Settings
open Files Variables

inductive Leaf where
  | json
  | verbose
  | debug
  | logJson
  | encoding
  | verboseOutput
  | width
  deriving DecidableEq, Repr

namespace Leaf

/-- The section that a leaf is a key of, if it is no plain setting. -/
def home? : Leaf → Option String
  | .encoding => some "input"
  | .verboseOutput | .width => some "output"
  | _ => none

def key : Leaf → String
  | .json => "json_output"
  | .verbose | .verboseOutput => "verbose"
  | .debug => "debug"
  | .logJson => "log_json"
  | .encoding => "encoding"
  | .width => "width"

def place (l : Leaf) : List String := l.home?.toList ++ [l.key]

/-- The name of the variable of a leaf, in lower case. -/
def variableName (l : Leaf) : String := "roverctl_" ++ "__".intercalate l.place

def target (l : Leaf) : Target := l.home?.elim (.plain l.key) (.sectionKey · l.key)

/-- The value that a leaf takes when it is given one. -/
def read (k : Rules) : Leaf → Value → Except Defect Value
  | .encoding, v => (k.toText v).map .string
  | .width, v => (k.toInt v).map .int
  | _, v => (k.toBool v).map .bool

def default : Leaf → Value
  | .encoding => .string "utf-8-sig"
  | .width => .int 120
  | _ => .bool false

/-- The value of a leaf in settings. -/
def valueIn (s : Settings) : Leaf → Value
  | .json => .bool s.json
  | .verbose => .bool s.verbose
  | .debug => .bool s.debug
  | .logJson => .bool s.logJson
  | .encoding => .string s.encoding
  | .verboseOutput => .bool s.verboseOutput
  | .width => .int s.width

/-- The value that a leaf takes from what is selected for it. -/
def outcome (k : Rules) (l : Leaf) (selected : Option Value) : Except Defect Value :=
  selected.elim (.ok l.default) (l.read k)

def defects (k : Rules) (l : Leaf) (selected : Option Value) : List Defect :=
  match l.outcome k selected with
  | .ok _ => []
  | .error d => [d]

def issues (k : Rules) (l : Leaf) (selected : Option Value) : List Issue :=
  (l.defects k selected).map fun d => ⟨d, l.place⟩

/-- What fields give for a leaf. -/
def inFields (fields : Fields) (l : Leaf) : Option Value :=
  match l.home? with
  | none => fields.lookup l.key
  | some home =>
    match fields.lookup home with
    | some (.object keys) => keys.lookup l.key
    | _ => none

/-- What the variable of a leaf gives, or else a variable below it. -/
def nested (environment : List (String × String)) (l : Leaf) : Option Value :=
  ((given? environment l.variableName).map Value.string).or
    (if ∃ v ∈ environment, (l.variableName ++ "__").toList <+: Text.lowerAscii v.1.toList
      then some (.object []) else none)

/-- What variables give for a leaf. Where the section has a variable of its own that holds an
object, the variable of the leaf sets the key in it, and of the keys that are the leaf's in any
letter case the last counts; where it holds anything else, the variable of the leaf does not
count. -/
def inVariables (environment : List (String × String)) (l : Leaf) : Option Value :=
  match l.home? with
  | none => (given? environment l.variableName).map Value.string
  | some home =>
    match given? environment ("roverctl_" ++ home) with
    | none => l.nested environment
    | some text =>
      match Json.parse? text with
      | some (.object fields) =>
        spelled? ((l.nested environment).elim fields fun v => Fields.put l.key v fields) l.key
      | _ => none

/-- What the highest source that gives a leaf gives for it. -/
def selected (flags : Fields) (environment : List (String × String)) (fromFile : Fields)
    (l : Leaf) : Option Value :=
  (inFields flags l).or ((inVariables environment l).or (inFields fromFile l))

end Leaf

/-- The first section whose variable does not hold JSON. -/
def malformedSection? (environment : List (String × String)) : Option String :=
  sectionNames.find? fun home =>
    (given? environment ("roverctl_" ++ home)).any fun text => (Json.parse? text).isNone

/-- Whether the variable of a section holds JSON that is neither an object nor null. -/
def isScalar (environment : List (String × String)) (home : String) : Bool :=
  match (given? environment ("roverctl_" ++ home)).bind Json.parse? with
  | none | some .null | some (.object _) => false
  | some _ => true

section Names
variable {environment : List (String × String)} {home : String} {l : Leaf}

theorem ofName?_variableName (l : Leaf) (a : String) :
    Target.ofName? a = some l.target ↔ lowered a = l.variableName := by
  cases l <;>
    exact Target.ofName?_eq_some_iff (fun _ _ h => by cases h) (by decide +kernel)
      (by decide +kernel)

theorem ofName?_sectionName (h : home ∈ sectionNames) (a : String) :
    Target.ofName? a = some (.wholeSection home) ↔ lowered a = "roverctl_" ++ home := by
  have hnames : ∀ home ∈ sectionNames, lowered ("roverctl_" ++ home) = "roverctl_" ++ home ∧
      Target.ofName? ("roverctl_" ++ home) = some (.wholeSection home) := by decide +kernel
  exact Target.ofName?_eq_some_iff (fun _ _ h => by cases h) (hnames home h).1 (hnames home h).2

theorem below_iff (hl : l.home? = some home) (a : String) :
    Target.ofName? a = some (.belowKey home l.key) ↔
      (l.variableName ++ "__").toList <+: Text.lowerAscii a.toList := by
  cases l <;> cases hl <;>
    exact Target.ofName?_eq_below_iff (by decide +kernel) (by decide +kernel) (by decide +kernel)

theorem lookup_sectionKeys_eq (hl : l.home? = some home) :
    (sectionKeys (givens environment) home).lookup l.key = l.nested environment := by
  have htarget : l.target = .sectionKey home l.key := by simp [Leaf.target, hl]
  rw [lookup_sectionKeys, ← htarget, last?_givens (ofName?_variableName l), Leaf.nested]
  simp only [exists_given_iff, below_iff hl]

end Names

section Sections
variable {environment : List (String × String)} {home : String} {l : Leaf} {fields : Fields}

/-- What a section is when its leaves are given, or that it is given as anything but an object. -/
inductive Gives (scalar : Bool) (home : String) (leaf : Leaf → Option Value) : Option Value → Prop
  | nothing (hscalar : scalar = false) (h : ∀ l : Leaf, l.home? = some home → leaf l = none) :
      Gives scalar home leaf none
  | object {keys : Fields} (hscalar : scalar = false)
      (h : ∀ l : Leaf, l.home? = some home → keys.lookup l.key = leaf l) :
      Gives scalar home leaf (some (.object keys))
  | scalar {v : Value} (hscalar : scalar = true) (hv : ∀ keys, v ≠ .object keys) :
      Gives scalar home leaf (some v)

/-- Whether a section has distinct keys. -/
def Distinct (o : Option Value) : Prop := ∀ keys : Fields, o = some (.object keys) → keys.keys.Nodup

theorem lookup_knownKeys_leaf (hl : l.home? = some home) (fields : Fields) :
    (knownKeys home fields).lookup l.key = spelled? fields l.key := by
  cases l <;> cases hl <;> exact lookup_knownKeys (by decide +kernel) (by decide +kernel) fields

theorem nodup_knownKeys (home : String) (fields : Fields) :
    (knownKeys home fields).keys.Nodup := by
  rw [knownKeys]
  exact Fields.nodup_putAll List.nodup_nil

/-- The variables of the keys set in the object of the section's variable. -/
theorem lookup_knownKeys_putAll (hl : l.home? = some home) (fields : Fields) :
    (knownKeys home (Fields.putAll (sectionKeys (givens environment) home) fields)).lookup l.key =
      spelled? ((l.nested environment).elim fields fun v => Fields.put l.key v fields) l.key := by
  rw [lookup_knownKeys_leaf hl, spelled?, spelled_putAll (nodup_sectionKeys _ _)
    (fun _ hk => lowered_of_mem_sectionKeys hk), lookup_sectionKeys_eq hl, spelled?]

/-- The variables of the keys alone. -/
theorem lookup_knownKeys_sectionKeys (hl : l.home? = some home) :
    (knownKeys home (sectionKeys (givens environment) home)).lookup l.key =
      l.nested environment := by
  have hlower : lowered l.key = l.key := by cases l <;> decide +kernel
  have hset : Fields.putAll (sectionKeys (givens environment) home) [] =
      sectionKeys (givens environment) home := Json.foldl_put [] (nodup_sectionKeys _ _)
  rw [← hset, lookup_knownKeys_putAll hl]
  cases l.nested environment with
  | none => rfl
  | some v => simp [spelled?, spelled, Fields.put, hlower]

theorem readSection_malformed (hhome : home ∈ sectionNames)
    (h : (given? environment ("roverctl_" ++ home)).any fun text => (Json.parse? text).isNone) :
    readSection (givens environment) home = .error ⟨home⟩ := by
  cases hgiven : given? environment ("roverctl_" ++ home) with
  | none => simp [hgiven] at h
  | some text =>
    rw [hgiven, Option.any_some, Option.isNone_iff_eq_none] at h
    rw [readSection, last?_givens (ofName?_sectionName hhome), hgiven]
    dsimp only
    rw [h]

theorem readSection_gives (hhome : home ∈ sectionNames)
    (h : (given? environment ("roverctl_" ++ home)).any (fun text => (Json.parse? text).isNone) =
      false) :
    ∃ o, readSection (givens environment) home = .ok o ∧ Distinct o ∧
      Gives (isScalar environment home) home (Leaf.inVariables environment) o := by
  rw [readSection, last?_givens (ofName?_sectionName hhome)]
  cases hgiven : given? environment ("roverctl_" ++ home) with
  | none =>
    have hscalar : isScalar environment home = false := by simp [isScalar, hgiven]
    have hin {l : Leaf} (hl : l.home? = some home) :
        l.inVariables environment = l.nested environment := by
      simp [Leaf.inVariables, hl, hgiven]
    dsimp only
    split
    · next hkeys =>
      refine ⟨_, rfl, (fun _ h => by cases h), .nothing hscalar fun l hl => ?_⟩
      rw [hin hl, ← lookup_sectionKeys_eq hl, hkeys]
      rfl
    · refine ⟨_, rfl, fun keys h => ?_, .object hscalar fun l hl => ?_⟩
      · cases h
        exact nodup_knownKeys _ _
      · rw [hin hl, lookup_knownKeys_sectionKeys hl]
  | some text =>
    rw [hgiven] at h
    cases hparse : Json.parse? text with
    | none => simp [hparse] at h
    | some v =>
      dsimp only
      rw [hparse]
      cases v with
      | null =>
        refine ⟨_, rfl, (fun _ h => by cases h), .nothing ?_ fun l hl => ?_⟩
        · simp only [isScalar, hgiven, hparse, Option.bind_some]
        · simp only [Leaf.inVariables, hl, hgiven, hparse]
      | object fields =>
        refine ⟨_, rfl, fun keys h => ?_, .object ?_ fun l hl => ?_⟩
        · cases h
          exact nodup_knownKeys _ _
        · simp only [isScalar, hgiven, hparse, Option.bind_some]
        · simp only [Leaf.inVariables, hl, hgiven, hparse]
          exact lookup_knownKeys_putAll hl fields
      | _ =>
        refine ⟨_, rfl, (fun _ h => by cases h), .scalar ?_ fun _ heq => by cases heq⟩
        simp only [isScalar, hgiven, hparse, Option.bind_some]

end Sections

section Fields
variable {environment : List (String × String)}

/-- When the variables of the sections hold JSON, the variables give fields of known names: those
of the plain leaves, and the sections. -/
theorem fields_ok (h : malformedSection? environment = none) :
    ∃ vars, Variables.fields environment = .ok vars ∧ vars.keys.Nodup ∧
      (∀ k ∈ vars.keys, isKnown k = true) ∧
      (∀ l : Leaf, l.home? = none → vars.lookup l.key = l.inVariables environment) ∧
      ∀ home ∈ sectionNames, Distinct (vars.lookup home) ∧
        Gives (isScalar environment home) home (Leaf.inVariables environment)
          (vars.lookup home) := by
  have hgives : ∀ home ∈ sectionNames, ∃ o,
      readSection (givens environment) home = .ok o ∧ Distinct o ∧
        Gives (isScalar environment home) home (Leaf.inVariables environment) o :=
    fun home hhome => readSection_gives hhome (by simpa using List.find?_eq_none.mp h home hhome)
  choose! o ho using hgives
  have hsections : (sectionNames.mapM fun name =>
      return (name, ← readSection (givens environment) name) : Except BadVariable _) =
      pure (sectionNames.map fun name => (name, o name)) :=
    mapM_of_forall fun name hname => by rw [(ho name hname).1]; rfl
  let plain (name : String) : Option Value :=
    (last? (givens environment) (.plain name)).map Value.string
  have hkeys : List.Sublist (Fields.ofNames plainNames plain ++ Fields.ofNames sectionNames o).keys
      (plainNames ++ sectionNames) := by
    rw [Fields.keys, List.map_append, ← Fields.keys, ← Fields.keys, Fields.keys_ofNames,
      Fields.keys_ofNames]
    exact List.filter_sublist.append List.filter_sublist
  refine ⟨Fields.ofNames plainNames plain ++ Fields.ofNames sectionNames o, ?_,
    hkeys.nodup (by decide), fun k hk => ?_, fun l hl => ?_, fun home hhome => ?_⟩
  · have hplain : plainFields (givens environment) = Fields.ofNames plainNames plain := by
      simp only [plainFields, Fields.ofNames, plain, Option.map_map]
      rfl
    simp only [Variables.fields, hsections, hplain, pure_bind, List.filterMap_map]
    rfl
  · have hknown : ∀ k ∈ plainNames ++ sectionNames, isKnown k = true := by decide
    exact hknown k (hkeys.subset hk)
  · have hmem : l.key ∈ plainNames ∧ l.key ∉ sectionNames := by
      cases l <;> cases hl <;> decide
    have hnone : (Fields.ofNames sectionNames o).lookup l.key = none := by
      refine Fields.lookup_eq_none fun hkey => hmem.2 ?_
      rw [Fields.keys_ofNames] at hkey
      exact List.mem_of_mem_filter hkey
    have htarget : l.target = .plain l.key := by simp [Leaf.target, hl]
    rw [List.lookup_append, hnone, Option.or_none, Fields.lookup_ofNames hmem.1, Leaf.inVariables,
      hl, ← last?_givens (ofName?_variableName l), htarget]
  · have hne : ∀ home ∈ sectionNames, home ∉ plainNames := by decide
    have hnone : (Fields.ofNames plainNames plain).lookup home = none := by
      refine Fields.lookup_eq_none fun hmem => hne home hhome ?_
      rw [Fields.keys_ofNames] at hmem
      exact List.mem_of_mem_filter hmem
    rw [List.lookup_append, hnone, Option.none_or, Fields.lookup_ofNames hhome]
    exact (ho home hhome).2

theorem fields_malformed {home : String} (h : malformedSection? environment = some home) :
    Variables.fields environment = .error ⟨home⟩ := by
  have hsections : (sectionNames.mapM fun name =>
      return (name, ← readSection (givens environment) name)) =
      (.error ⟨home⟩ : Except BadVariable _) := by
    refine mapM_of_find? (e := BadVariable.mk) (fun name hname hp => ?_) (fun name hname hp => ?_) h
    · obtain ⟨o, ho, -, -⟩ := readSection_gives hname hp
      exact ⟨(name, o), by rw [ho]; rfl⟩
    · rw [readSection_malformed hname hp]
      rfl
  simp only [Variables.fields, hsections]
  rfl

end Fields

end RoverFleet.Settings
