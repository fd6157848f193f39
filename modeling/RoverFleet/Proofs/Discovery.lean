import RoverFleet.Proofs.Resolution
import RoverFleet.Settings.Load

/-!
# Finding the settings file

The variable for it decides alone when it is set and not empty. Else the settings file is that of
the innermost directory that has one, among the start and the directories around it. A path that is
given counts before both. All this holds for paths short enough to be looked up: 4096 bytes are too
many, even if no name on the path is too long.
-/
namespace RoverFleet

namespace Files

namespace Tree
variable {t : Tree} {here : Location} {parts : List String} {e : Entry}

/-- The entry lies at the end of the components, and before each of them there is a directory. -/
def Reaches (t : Tree) (here : Location) (parts : List String) (e : Entry) : Prop :=
  (∀ before part after, parts = before ++ part :: after →
    t.entry? (here.walk before) = some .directory) ∧ t.entry? (here.walk parts) = some e

theorem reaches_nil : t.Reaches here [] e ↔ t.entry? here = some e := by
  simp [Reaches, Location.walk]

theorem reaches_cons {part : String} : t.Reaches here (part :: parts) e ↔
    t.entry? here = some .directory ∧ t.Reaches (here.push part) parts e := by
  constructor
  · rintro ⟨hway, hend⟩
    refine ⟨hway [] part parts rfl, fun before next after hparts => ?_, hend⟩
    exact hway (part :: before) next after (by rw [hparts]; rfl)
  · rintro ⟨hhere, hway, hend⟩
    refine ⟨fun before next after hparts => ?_, hend⟩
    cases before with
    | nil => exact hhere
    | cons first before =>
      obtain ⟨rfl, hrest⟩ := List.cons.inj hparts
      exact hway before next after hrest

/-- A lookup without long names finds the files that are reached. -/
theorem find?_of_short (t : Tree) (here : Location)
    (hshort : ∀ part ∈ parts, part.utf8ByteSize ≤ 255) :
    ∃ found, t.find? here parts = .ok found ∧
      ∀ bytes, found = some (.file bytes) ↔ t.Reaches here parts (.file bytes) := by
  induction parts generalizing here with
  | nil => exact ⟨t.entry? here, rfl, fun bytes => reaches_nil.symm⟩
  | cons part rest ih =>
    obtain ⟨hpart, hrest⟩ := List.forall_mem_cons.mp hshort
    have hlong : isLong part = false := decide_eq_false (Nat.not_lt.mpr hpart)
    rw [find?]
    split
    · next hdirectory =>
      obtain ⟨found, hfind, hfound⟩ := ih (here.push part) hrest
      refine ⟨found, by rw [hlong, if_neg Bool.false_ne_true, hfind], fun bytes => ?_⟩
      rw [hfound, reaches_cons, and_iff_right hdirectory]
    · next hother =>
      refine ⟨none, rfl, fun bytes => ?_⟩
      rw [reaches_cons]
      exact iff_of_false (by simp) fun h => hother h.1

end Tree

/-- A path that can be looked up: without null characters, with names of at most 255 bytes, and of
less than 4096 bytes. -/
structure Path.Fits (p : Path) : Prop where
  plain : p.hasNul = false
  short : ∀ part ∈ p.parts, part.utf8ByteSize ≤ 255
  size : p.text.utf8ByteSize < 4096

namespace Host
variable {h : Host} {p : Path}

/-- A regular file with the bytes is at the path. -/
def Holds (h : Host) (p : Path) (bytes : List UInt8) : Prop :=
  h.tree.Reaches (if p.isAbsolute then [] else h.directory) p.parts (.file bytes)

def HasFile (h : Host) (p : Path) : Prop := ∃ bytes, h.Holds p bytes

theorem fileAt?_of_fits (h : Host) (hp : p.Fits) :
    ∃ content, h.fileAt? p = .ok content ∧ ∀ bytes, content = some bytes ↔ h.Holds p bytes := by
  obtain ⟨found, hfind, hfound⟩ := Tree.find?_of_short h.tree
    (if p.isAbsolute then [] else h.directory) hp.short
  have hlookup : h.fileAt? p = .ok (found.bind Entry.bytes?) := by
    rw [fileAt?, entryAt?, Tree.entryAt?, hp.plain, if_neg Bool.false_ne_true,
      if_neg hp.size.not_ge, hfind]
    rfl
  refine ⟨_, hlookup, fun bytes => (Iff.trans ?_ (hfound bytes) :)⟩
  rcases found with _ | _ | _ <;> simp [Entry.bytes?]

theorem isFile_of_size (hplain : p.hasNul = false) (hsize : 4096 ≤ p.text.utf8ByteSize) :
    h.system.isFile p = .error .nameTooLong :=
  System.isFile_error_iff.mpr ⟨_, rfl, unexamined_of_tooLong ⟨hplain, Or.inl hsize⟩⟩

theorem isFile_of_fits (h : Host) (hp : p.Fits) :
    (h.HasFile p ∧ h.system.isFile p = .ok true) ∨
      (¬ h.HasFile p ∧ h.system.isFile p = .ok false) := by
  obtain ⟨content, hlookup, hcontent⟩ := fileAt?_of_fits h hp
  cases content with
  | none =>
    refine Or.inr ⟨?_, isFile_of_fileAt? hlookup⟩
    rintro ⟨bytes, hbytes⟩
    cases (hcontent bytes).mpr hbytes
  | some bytes => exact Or.inl ⟨⟨bytes, (hcontent bytes).mp rfl⟩, isFile_of_fileAt? hlookup⟩

end Host

namespace Location
variable {l d : Location}

theorem withParents_nil : withParents [] = [[]] := rfl

theorem withParents_concat (l : Location) (name : String) :
    (l ++ [name]).withParents = (l ++ [name]) :: l.withParents := by
  have htake : (List.range (l.length + 1)).map (l ++ [name]).take =
      (List.range (l.length + 1)).map l.take := by
    refine List.map_congr_left fun n hn => ?_
    rw [List.mem_range] at hn
    exact List.take_append_of_le_length (Nat.le_of_lt_succ hn)
  rw [withParents, List.length_append, List.length_singleton, List.range_succ, List.map_append,
    htake, List.reverse_append]
  simp [withParents, List.take_of_length_le]

theorem exists_withParents (l : Location) : ∃ around, l.withParents = l :: around := by
  induction l using List.reverseRecOn with
  | nil => exact ⟨[], withParents_nil⟩
  | append_singleton l name _ => exact ⟨_, withParents_concat l name⟩

/-- The text of a path from the root has a slash before each component. -/
theorem size_toPath (part : String) (l : Location) :
    (toPath (part :: l)).text.utf8ByteSize =
      ((part :: l).map fun name => name.utf8ByteSize + 1).sum := by
  have hslash : ("/" : String).utf8ByteSize = 1 := rfl
  have hjoined : ("/".intercalate (part :: l)).utf8ByteSize + 1 =
      ((part :: l).map fun name => name.utf8ByteSize + 1).sum := by
    induction l generalizing part with
    | nil => simp
    | cons next rest ih =>
      rw [String.intercalate_cons_cons, String.utf8ByteSize_append, String.utf8ByteSize_append,
        List.map_cons, List.sum_cons, ← ih, hslash]
      omega
  have htext : (toPath (part :: l)).text = "/" ++ "/".intercalate (part :: l) := rfl
  rw [htext, String.utf8ByteSize_append, hslash, Nat.add_comm, hjoined]

end Location

end Files

namespace Settings
open Files Location

/-- The path of the settings file of a directory. -/
def fileOf (d : Location) : Path := (d ++ [fileName]).toPath

/-- The path of a text, if a regular file is there. -/
inductive Named (h : Host) (text : String) : Option Path → Prop
  | found (hfile : h.HasFile (Path.ofText text)) : Named h text (some (Path.ofText text))
  | missing (hnone : ¬ h.HasFile (Path.ofText text)) : Named h text none

/-- The settings file of the innermost directory that has one, among a place and those around. -/
inductive Nearest (h : Host) (l : Location) : Option Path → Prop
  | found {d : Location} (hd : d <+: l) (hfile : h.HasFile (fileOf d))
      (hinner : ∀ e, e <+: l → h.HasFile (fileOf e) → e.length ≤ d.length) :
      Nearest h l (some (fileOf d))
  | missing (hnone : ∀ d, d <+: l → ¬ h.HasFile (fileOf d)) : Nearest h l none

section Finding
variable {h : Host} {l d : Location} {name : String} {file : Option Path}

theorem nearest_here (hfile : h.HasFile (fileOf l)) : Nearest h l (some (fileOf l)) :=
  .found (List.prefix_refl l) hfile fun _ he _ => he.length_le

theorem Nearest.around (hn : Nearest h l file) (hnone : ¬ h.HasFile (fileOf (l ++ [name]))) :
    Nearest h (l ++ [name]) file := by
  have hinside {e : Location} (he : e <+: l ++ [name]) (hfile : h.HasFile (fileOf e)) :
      e <+: l := by
    rcases List.prefix_concat_iff.mp he with rfl | he
    · exact absurd hfile hnone
    · exact he
  cases hn with
  | found hd hfile hinner =>
    exact .found (hd.trans (List.prefix_append l [name])) hfile
      fun e he hfile' => hinner e (hinside he hfile') hfile'
  | missing hnone' => exact .missing fun d hd hfile => hnone' d (hinside hd hfile) hfile

theorem size_fileOf (l : Location) : (fileOf l).text.utf8ByteSize =
    ((l ++ [fileName]).map fun name => name.utf8ByteSize + 1).sum := by
  cases l with
  | nil => exact size_toPath fileName []
  | cons part rest => exact size_toPath part (rest ++ [fileName])

/-- The paths of the directories around are shorter. -/
theorem fits_fileOf (hl : (fileOf l).Fits) (hd : d <+: l) : (fileOf d).Fits := by
  obtain ⟨more, rfl⟩ := hd
  have hparts : ∀ part ∈ d ++ [fileName], part ∈ d ++ more ++ [fileName] := by
    intro part hpart
    simp only [List.mem_append] at hpart ⊢
    exact hpart.imp_left Or.inl
  refine ⟨?_, fun part hpart => hl.short part (hparts part hpart), ?_⟩
  · have hplain := hl.plain
    simp only [Path.hasNul, List.any_eq_false] at hplain ⊢
    exact fun part hpart => hplain part (hparts part hpart)
  · refine Nat.lt_of_le_of_lt ?_ hl.size
    rw [size_fileOf, size_fileOf]
    simp only [List.map_append, List.sum_append]
    omega

theorem firstFile?_cons (d : Location) (rest : List Location) : firstFile? h (d :: rest) =
    (do if ← h.system.isFile (fileOf d) then return some (fileOf d) else firstFile? h rest) := rfl

/-- The directories are looked through from the innermost one outwards. -/
theorem firstFile?_nearest (h : Host) (l : Location) (hfit : (fileOf l).Fits) :
    ∃ file, firstFile? h l.withParents = .ok file ∧ Nearest h l file := by
  induction l using List.reverseRecOn with
  | nil =>
    rw [withParents_nil, firstFile?_cons]
    rcases Host.isFile_of_fits h hfit with ⟨hfile, his⟩ | ⟨hnone, his⟩
    · exact ⟨_, by rw [his]; rfl, nearest_here hfile⟩
    · refine ⟨none, by rw [his]; rfl, .missing fun d hd => ?_⟩
      rwa [List.prefix_nil.mp hd]
  | append_singleton l name ih =>
    rw [withParents_concat, firstFile?_cons]
    rcases Host.isFile_of_fits h hfit with ⟨hfile, his⟩ | ⟨hnone, his⟩
    · exact ⟨_, by rw [his]; rfl, nearest_here hfile⟩
    · obtain ⟨file, hrest, hn⟩ := ih (fits_fileOf hfit (List.prefix_append l [name]))
      exact ⟨file, by rw [his, ← hrest]; rfl, hn.around hnone⟩

theorem namedFile?_named (h : Host) {text : String} (hp : (Path.ofText text).Fits) :
    ∃ file, namedFile? h text = .ok file ∧ Named h text file := by
  rcases Host.isFile_of_fits h hp with ⟨hfile, his⟩ | ⟨hnone, his⟩
  · exact ⟨_, by simp only [namedFile?, his]; rfl, .found hfile⟩
  · exact ⟨none, by simp only [namedFile?, his]; rfl, .missing hnone⟩

/-- What the variable for the settings file holds; one that is not set counts as empty. -/
def variableText (h : Host) : String := (h.system.lookup? fileVariable).getD ""

theorem findFile?_of_variable (hv : variableText h ≠ "") (start : Option Path) :
    findFile? h start = namedFile? h (variableText h) := by
  unfold findFile? variableText at *
  cases hlookup : h.system.lookup? fileVariable with
  | none => simp [hlookup] at hv
  | some text =>
    rw [hlookup, Option.getD_some] at hv
    simp [hv]

theorem findFile?_of_no_variable (hv : variableText h = "") (start : Option Path)
    (hl : h.system.resolve (start.getD h.directory.toPath) = .ok l) :
    findFile? h start = firstFile? h l.withParents := by
  have hstart : start.elim h.system.current .ok = .ok (start.getD h.directory.toPath) := by
    cases start <;> rfl
  have hnearest : findFile?.nearest h start = firstFile? h l.withParents := by
    simp only [findFile?.nearest, hstart, bind, Except.bind, hl]
  unfold findFile? variableText at *
  cases hlookup : h.system.lookup? fileVariable with
  | none => exact hnearest
  | some text =>
    rw [hlookup, Option.getD_some] at hv
    simpa [hv] using hnearest

/-- Where the search starts: at a path that is seen from the host's directory. -/
def startAt (h : Host) (start : Option String) : Location :=
  (follow [] h.directory.text).follow (start.getD "")

theorem resolve_start (hd : h.directory.Canonical) {start : Option String}
    (hnul : '\x00' ∉ (start.getD "").toList) :
    h.system.resolve ((start.map Path.ofText).getD h.directory.toPath) = .ok (startAt h start) := by
  rw [startAt, follow_text hd]
  cases start with
  | none => exact resolve_toPath hd h
  | some text =>
    have hplain : (Path.ofText text).hasNul = false := Path.hasNul_ofText hnul
    rw [Option.map_some, Option.getD_some, Host.resolve_eq, hplain, if_neg Bool.false_ne_true,
      Option.getD_some, Path.follow_eq_walk]

end Finding

section Loading
variable {k : Rules} {h : Host} {given : Option String} {base file : Option Path} {flags : Fields}

/-- The settings of flags, variables, and what was read from a file. -/
def assemble (k : Rules) (h : Host) (base : Option Path) (flags : Fields) (file : Option Path)
    (fromFile : Except Failure Fields) : Except Failure Settings := do
  let fromFile ← fromFile
  let fromVariables ← (k.fieldsOf h.environment).mapError .badVariable
  let fields := flags.overlay (fromVariables.overlay fromFile)
  (ofFields k (base.getD h.directory.toPath) file fields).mapError .invalid

/-- Settings are loaded from a file and from no other one, and tell which it was. -/
structure LoadsFrom (k : Rules) (h : Host) (base : Option Path) (flags : Fields)
    (file : Option Path) (loaded : Except Failure Settings) : Prop where
  reads : loaded = assemble k h base flags file (fileFields h file)
  bytes : ∀ p, file = some p → ∃ bytes, h.Holds p bytes ∧ fileFields h file = readToml p bytes
  kept : ∀ s, loaded = .ok s → s.file = file

theorem ofFields_file {base : Path} {fields : Fields} {s : Settings}
    (h : ofFields k base file fields = .ok s) : s.file = file := by
  obtain ⟨_, -, h⟩ := bind_ok_iff.mp h
  cases h
  rfl

theorem assemble_file {fromFile : Except Failure Fields} {s : Settings}
    (hs : assemble k h base flags file fromFile = .ok s) : s.file = file := by
  obtain ⟨_, -, hs⟩ := bind_ok_iff.mp hs
  obtain ⟨_, -, hs⟩ := bind_ok_iff.mp hs
  exact ofFields_file (mapError_ok_iff.mp hs)

theorem fileFields_of_holds {p : Path} (hp : p.Fits) {bytes : List UInt8}
    (hb : h.Holds p bytes) : fileFields h (some p) = readToml p bytes := by
  obtain ⟨content, hlookup, hcontent⟩ := Host.fileAt?_of_fits h hp
  rw [(hcontent bytes).mpr hb] at hlookup
  obtain ⟨his, hread⟩ := Host.holds_of_fileAt? hlookup
  simp [fileFields, fileBytes, his, hread, Except.mapError, bind, Except.bind]

theorem loadsFrom (k : Rules) (hchoose : chooseFile? h given base = .ok file)
    (hfile : ∀ p, file = some p → p.Fits ∧ h.HasFile p) (flags : Fields) :
    LoadsFrom k h base flags file (load k h given base flags) := by
  have hreads : load k h given base flags = assemble k h base flags file (fileFields h file) := by
    rw [load, hchoose]
    cases base <;> rfl
  refine ⟨hreads, fun p hp => ?_, fun s hs => assemble_file (hreads.symm.trans hs)⟩
  obtain ⟨hfits, bytes, hbytes⟩ := hfile p hp
  exact ⟨bytes, hbytes, hp ▸ fileFields_of_holds hfits hbytes⟩

end Loading

theorem Named.file {h : Host} {text : String} {file : Option Path} (hn : Named h text file)
    (hp : (Path.ofText text).Fits) : ∀ p, file = some p → p.Fits ∧ h.HasFile p := by
  rintro p rfl
  cases hn with
  | found hfile => exact ⟨hp, hfile⟩

theorem Nearest.file {h : Host} {l : Location} {file : Option Path} (hn : Nearest h l file)
    (hl : (fileOf l).Fits) : ∀ p, file = some p → p.Fits ∧ h.HasFile p := by
  rintro p rfl
  cases hn with
  | found hd hfile _ => exact ⟨fits_fileOf hl hd, hfile⟩

/-- On a host whose directory is in canonical form, the variable for the settings file decides when
it is not empty, whatever the start: its path is found if a regular file is there, and nothing else
is. Otherwise the settings file of the innermost directory that has one is found, from the start
outwards. Without a path of their own, settings are loaded from that file. With one, they are loaded
from the file at this path or from none. -/
theorem findFile?_nearest (k : Rules) {h : Host} (hd : h.directory.Canonical)
    (start : Option String)
    (hvariable : variableText h ≠ "" → (Path.ofText (variableText h)).Fits)
    (hstart : variableText h = "" →
      '\x00' ∉ (start.getD "").toList ∧ (fileOf (startAt h start)).Fits) :
    (∃ file, findFile? h (start.map Path.ofText) = .ok file ∧
      (variableText h ≠ "" → Named h (variableText h) file ∧
        ∀ other, findFile? h other = .ok file) ∧
      (variableText h = "" → Nearest h (startAt h start) file) ∧
      ∀ given, given = none ∨ given = some "" → ∀ flags,
        LoadsFrom k h (start.map Path.ofText) flags file
          (load k h given (start.map Path.ofText) flags)) ∧
    ∀ text, text ≠ "" → (Path.ofText text).Fits → ∃ file, Named h text file ∧
      ∀ base flags, LoadsFrom k h base flags file (load k h (some text) base flags) := by
  constructor
  · have hchoose {file : Option Path} {given : Option String}
        (hfind : findFile? h (start.map Path.ofText) = .ok file)
        (hgiven : given = none ∨ given = some "") :
        chooseFile? h given (start.map Path.ofText) = .ok file := by
      rcases hgiven with rfl | rfl
      · exact hfind
      · exact hfind
    by_cases hv : variableText h = ""
    · obtain ⟨hnul, hfits⟩ := hstart hv
      obtain ⟨file, hfirst, hnearest⟩ := firstFile?_nearest h (startAt h start) hfits
      have hfind := (findFile?_of_no_variable hv _ (resolve_start hd hnul)).trans hfirst
      exact ⟨file, hfind, fun hne => absurd hv hne, fun _ => hnearest,
        fun given hgiven => loadsFrom k (hchoose hfind hgiven) (hnearest.file hfits)⟩
    · obtain ⟨file, hname, hnamed⟩ := namedFile?_named h (hvariable hv)
      have hfind (other : Option Path) : findFile? h other = .ok file :=
        (findFile?_of_variable hv other).trans hname
      exact ⟨file, hfind _, fun _ => ⟨hnamed, hfind⟩, fun he => absurd he hv,
        fun given hgiven => loadsFrom k (hchoose (hfind _) hgiven) (hnamed.file (hvariable hv))⟩
  · intro text hne hfits
    obtain ⟨file, hname, hnamed⟩ := namedFile?_named h hfits
    refine ⟨file, hnamed, fun base flags => loadsFrom k ?_ (hnamed.file hfits) flags⟩
    rw [chooseFile?, if_pos hne, hname]

/-- The search passes over a directory of the name of the file. A variable that leads nowhere
suppresses it. -/
theorem findFile?_nearest_around :
    let tree : Tree := ⟨[(["a", "b", fileName], .directory), (["a", fileName], .file []),
      ([fileName], .file [0x78])]⟩
    let h : Host := ⟨tree, ["a"], []⟩
    let bound : Host := ⟨tree, ["a"], [(fileVariable, "no/file")]⟩
    h.directory.Canonical ∧ variableText h = "" ∧ variableText bound = "no/file" ∧
      startAt h (some "b/../b/c") = ["a", "b", "c"] ∧
      findFile? h (some (Path.ofText "b/../b/c")) = .ok (some (fileOf ["a"])) ∧
      (∀ s, load .standard h none (some (Path.ofText "b/../b/c")) [] = .ok s →
        s.file = some (fileOf ["a"])) ∧
      ∀ start, findFile? bound start = .ok none := by
  intro tree h bound
  have hd : h.directory.Canonical := by
    intro part hpart
    obtain rfl := List.mem_singleton.mp hpart
    constructor <;> decide
  have hd' : bound.directory.Canonical := hd
  have hunset : variableText h = "" := by decide +kernel
  have hset : variableText bound = "no/file" := by decide +kernel
  have hl : startAt h (some "b/../b/c") = ["a", "b", "c"] := by decide +kernel
  have hfile : findFile? h (some (Path.ofText "b/../b/c")) = .ok (some (fileOf ["a"])) := by
    decide +kernel
  have hnone : findFile? bound none = .ok none := by decide +kernel
  have hfits : (fileOf ["a", "b", "c"]).Fits := by constructor <;> decide +kernel
  have hfits' : (Path.ofText (variableText bound)).Fits := by
    rw [hset]
    constructor <;> decide +kernel
  obtain ⟨⟨file, hfind, -, -, hload⟩, -⟩ := findFile?_nearest .standard hd (some "b/../b/c")
    (fun hne => absurd hunset hne) (fun _ => ⟨by decide, hl ▸ hfits⟩)
  obtain ⟨⟨file', hfind', hnamed, -⟩, -⟩ := findFile?_nearest .standard hd' none
    (fun _ => hfits') (fun he => absurd he (by rw [hset]; decide))
  obtain rfl : some (fileOf ["a"]) = file := Except.ok.inj (hfile.symm.trans hfind)
  obtain rfl : none = file' := Except.ok.inj (hnone.symm.trans hfind')
  exact ⟨hd, hunset, hset, hl, hfile, (hload none (Or.inl rfl) []).kept,
    (hnamed (by rw [hset]; decide)).2⟩

/-- A start from which no settings file is around, on a path that is too long although its names
are short. -/
theorem findFile?_long_start :
    let start : Location := List.replicate 2048 "n"
    let h : Host := ⟨⟨[]⟩, [], []⟩
    variableText h = "" ∧ start.Canonical ∧ startAt h (some start.text) = start ∧
      (∀ part ∈ start ++ [fileName], part.utf8ByteSize ≤ 255) ∧ Nearest h start none ∧
      findFile? h (some (Path.ofText start.text)) = .error .nameTooLong := by
  intro start h
  have hnames : ∀ part ∈ start ++ [fileName], part = "n" ∨ part = fileName := by
    intro part hpart
    rcases List.mem_append.mp hpart with hpart | hpart
    · exact Or.inl (List.eq_of_mem_replicate hpart)
    · exact Or.inr (List.mem_singleton.mp hpart)
  have hcanonical : (start ++ [fileName]).Canonical := by
    intro part hpart
    rcases hnames part hpart with rfl | rfl <;> constructor <;> decide
  have hstart : start.Canonical := fun part hpart => hcanonical part (List.mem_append_left _ hpart)
  have hshort : ∀ part ∈ start ++ [fileName], part.utf8ByteSize ≤ 255 := by
    intro part hpart
    rcases hnames part hpart with rfl | rfl <;> decide
  have hempty : ∀ d, ¬ h.HasFile (fileOf d) := by
    rintro d ⟨bytes, -, hfile⟩
    simp [h, Tree.entry?] at hfile
  have hsize : 4096 ≤ (fileOf start).text.utf8ByteSize := by
    rw [size_fileOf, List.map_append, List.sum_append, List.map_replicate, List.sum_replicate]
    exact Nat.le_add_right_of_le (by decide)
  have hlong : h.system.isFile (fileOf start) = .error .nameTooLong :=
    Host.isFile_of_size (hasNul_toPath hcanonical) hsize
  have hresolve : h.system.resolve (Path.ofText start.text) = .ok start := by
    rw [ofText_text hstart, resolve_toPath hstart]
  obtain ⟨around, haround⟩ := exists_withParents start
  refine ⟨rfl, hstart, follow_text hstart _, hshort, .missing fun d _ => hempty d, ?_⟩
  rw [findFile?_of_no_variable rfl (some (Path.ofText start.text)) hresolve, haround,
    firstFile?_cons, hlong]
  rfl

end Settings

end RoverFleet
