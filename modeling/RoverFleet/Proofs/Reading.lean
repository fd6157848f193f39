import RoverFleet.Proofs.Outcome
import RoverFleet.Files.Tree
import RoverFleet.Script.File

/-!
# Reading script files

A script file that is not there, cannot be opened or read, or does not decode makes a report. A path
that cannot be resolved or examined and a UTF-16 file without a mark end the run without one.
-/
namespace RoverFleet

/-- A text without slashes, other than a dot, is the path of one name. -/
theorem Files.Path.ofText_name {name : List Char} (hslash : '/' ∉ name) (hne : name ≠ [])
    (hdot : name ≠ ['.']) : Path.ofText (String.ofList name) = ⟨0, [String.ofList name]⟩ := by
  have hsplit : ([ '/' ].intercalate [name]).splitOn '/' = [name] :=
    List.splitOn_intercalate '/' (by simpa using hslash) (by simp)
  have hslashes : name.takeWhile (· = '/') = [] := by
    cases name with
    | nil => rfl
    | cons c rest =>
      have hc : c ≠ '/' := fun hc => hslash (by simp [hc])
      simp [hc]
  have hparts : Path.components name = [String.ofList name] := by
    have hne' : String.ofList name ≠ "" := by simpa [← String.toList_inj] using hne
    have hdot' : String.ofList name ≠ "." := by simpa [← String.toList_inj] using hdot
    rw [List.intercalate_singleton] at hsplit
    simp [Path.components, hsplit, hne', hdot']
  simp [Path.ofText, hslashes, hparts]

namespace Files.Tree
variable {t : Tree} {here : Location} {parts : List String}

/-- Every place that is passed on the way is a directory. -/
def Open (t : Tree) (here : Location) (parts : List String) : Prop :=
  ∀ taken, taken <+: parts → t.entry? (Location.walk here taken) = some .directory

theorem Open.start (h : t.Open here parts) : t.entry? here = some .directory :=
  h [] (List.nil_prefix)

theorem open_nil (h : t.entry? here = some .directory) : t.Open here [] := by
  intro taken htaken
  rw [List.prefix_nil.mp htaken]
  exact h

theorem open_cons {part : String} (h : t.entry? here = some .directory) :
    t.Open here (part :: parts) ↔ t.Open (here.push part) parts := by
  constructor
  · intro hopen taken htaken
    exact hopen (part :: taken) (List.cons_prefix_cons.mpr ⟨rfl, htaken⟩)
  · intro hopen taken htaken
    cases taken with
    | nil => exact h
    | cons first more =>
      obtain ⟨rfl, hmore⟩ := List.cons_prefix_cons.mp htaken
      exact hopen more hmore

/-- On the way through directories there is a name of more than 255 bytes. -/
def LongName (t : Tree) (here : Location) (parts : List String) : Prop :=
  ∃ before part after, parts = before ++ part :: after ∧ t.Open here before ∧ isLong part = true

theorem longName_nil : ¬ t.LongName here [] := by
  rintro ⟨before, part, after, h, -, -⟩
  exact absurd h (by simp)

theorem LongName.start (h : t.LongName here parts) : t.entry? here = some .directory := by
  obtain ⟨before, part, after, -, hopen, -⟩ := h
  exact hopen.start

theorem longName_here {part : String} (h : t.entry? here = some .directory)
    (hlong : isLong part = true) : t.LongName here (part :: parts) :=
  ⟨[], part, parts, rfl, open_nil h, hlong⟩

theorem longName_cons {part : String} (h : t.entry? here = some .directory)
    (hlong : isLong part = false) :
    t.LongName here (part :: parts) ↔ t.LongName (here.push part) parts := by
  constructor
  · rintro ⟨before, name, after, hparts, hopen, hname⟩
    cases before with
    | nil =>
      obtain ⟨rfl, -⟩ := List.cons.inj hparts
      rw [hlong] at hname
      cases hname
    | cons first before =>
      obtain ⟨rfl, hrest⟩ := List.cons.inj hparts
      exact ⟨before, name, after, hrest, (open_cons h).mp hopen, hname⟩
  · rintro ⟨before, name, after, rfl, hopen, hname⟩
    exact ⟨part :: before, name, after, rfl, (open_cons h).mpr hopen, hname⟩

/-- Looking up fails at the first long name that is reached, and in no other way. -/
theorem find?_error_iff {e : SystemError} :
    t.find? here parts = .error e ↔ e = .nameTooLong ∧ t.LongName here parts := by
  -- Each step either stops here or goes on from the next place, which is why the place varies.
  induction parts generalizing here with
  | nil => simp [find?, longName_nil]
  | cons part rest ih =>
    rw [find?]
    split
    · next hdirectory =>
      cases hlong : isLong part with
      | true => simp [longName_here hdirectory hlong, eq_comm]
      | false => simp [longName_cons hdirectory hlong, ih]
    · next hother =>
      have hno : ¬ t.LongName here (part :: rest) := fun h => hother h.start
      simp [hno]

/-- A path without null characters that is too long itself, or has a long name where it is looked
up. -/
def TooLong (t : Tree) (directory : Location) (p : Path) : Prop :=
  p.hasNul = false ∧ (4096 ≤ p.text.utf8ByteSize ∨
    t.LongName (if p.isAbsolute then [] else directory) p.parts)

theorem entryAt?_error_iff {directory : Location} {p : Path} {e : SystemError} :
    t.entryAt? directory p = .error e ↔ e = .nameTooLong ∧ t.TooLong directory p := by
  cases hnul : p.hasNul with
  | true => simp [entryAt?, TooLong, hnul]
  | false =>
    rw [entryAt?, TooLong, hnul, if_neg Bool.false_ne_true, and_iff_right rfl]
    by_cases hsize : 4096 ≤ p.text.utf8ByteSize
    · rw [if_pos hsize, and_iff_left (Or.inl hsize), Except.error.injEq, eq_comm]
    · rw [if_neg hsize, or_iff_right hsize, find?_error_iff]

end Files.Tree

namespace Files.System
variable {s : System} {p : Path}

/-- Why a path leads to no location: a null character, or the links on it. -/
inductive Astray (s : System) (p : Path) : PathFault → Prop
  | nul (hnul : p.hasNul = true) : Astray s p .embeddedNul
  | links {e : SystemError} (hnul : p.hasNul = false) (hfollow : s.follow p = .error e)
      (hloop : e.isLoop = false) : Astray s p (.system e)
  | loop {e : SystemError} (hnul : p.hasNul = false) (hfollow : s.follow p = .error e)
      (hloop : e.isLoop = true) : Astray s p (.linkLoop p)
  | loopAtEnd {l : Location} {e : SystemError} (hnul : p.hasNul = false)
      (hfollow : s.follow p = .ok l) (hend : s.examine l.toPath = .error e)
      (hloop : e.isLoop = true) : Astray s p (.linkLoop l.toPath)

theorem resolve_error_iff {f : PathFault} : s.resolve p = .error f ↔ s.Astray p f := by
  constructor
  · intro h
    unfold resolve at h
    split_ifs at h with hnul
    · cases h
      exact .nul hnul
    · have hplain : p.hasNul = false := Bool.eq_false_iff.mpr hnul
      split at h
      · next e hfollow =>
        split_ifs at h with hloop <;> cases h
        · exact .loop hplain hfollow hloop
        · exact .links hplain hfollow (Bool.eq_false_iff.mpr hloop)
      · next l hfollow =>
        split at h
        · next e hend =>
          split_ifs at h with hloop
          cases h
          exact .loopAtEnd hplain hfollow hend hloop
        · cases h
  · intro h
    cases h with
    | nul hnul => simp [resolve, hnul]
    | links hnul hfollow hloop => simp [resolve, hnul, hfollow, hloop]
    | loop hnul hfollow hloop => simp [resolve, hnul, hfollow, hloop]
    | loopAtEnd hnul hfollow hend hloop => simp [resolve, hnul, hfollow, hend, hloop]

/-- The system cannot tell what lies at a path. -/
structure Unexamined (s : System) (p : Path) (e : SystemError) : Prop where
  plain : p.hasNul = false
  error : s.examine p = .error e
  present : e.isAbsence = false

theorem isFile_error_iff {f : PathFault} :
    s.isFile p = .error f ↔ ∃ e, f = .system e ∧ s.Unexamined p e := by
  constructor
  · intro h
    unfold isFile at h
    split_ifs at h with hnul
    split at h
    · cases h
    · next e hexamine =>
      split_ifs at h with habsence
      cases h
      exact ⟨e, rfl, Bool.eq_false_iff.mpr hnul, hexamine, Bool.eq_false_iff.mpr habsence⟩
  · rintro ⟨e, rfl, hplain, hexamine, hpresent⟩
    simp [isFile, hplain, hexamine, hpresent]

/-- A regular file is at a path, and its bytes can be read. -/
structure Holds (s : System) (p : Path) (bytes : List UInt8) : Prop where
  isFile : s.isFile p = .ok true
  contents : s.contents p = .ok (.ok bytes)

end Files.System

namespace Files.Host
variable {h : Host} {p : Path}

theorem isFile_of_fileAt? {content : Option (List UInt8)} (hfile : h.fileAt? p = .ok content) :
    h.system.isFile p = .ok content.isSome := by
  cases hnul : p.hasNul with
  | true =>
    have hentry : h.entryAt? p = .ok none := by simp [entryAt?, Tree.entryAt?, hnul]
    rw [fileAt?, hentry] at hfile
    obtain rfl := Except.ok.inj hfile
    simp [System.isFile, hnul]
  | false =>
    rw [System.isFile, hnul, if_neg Bool.false_ne_true]
    rw [fileAt?] at hfile
    cases hentry : h.entryAt? p with
    | error e =>
      rw [hentry] at hfile
      cases hfile
    | ok entry =>
      rw [hentry] at hfile
      obtain rfl := Except.ok.inj hfile
      simp only [system, hentry]
      rcases entry with _ | _ | _ <;> rfl

theorem holds_of_fileAt? {bytes : List UInt8} (hfile : h.fileAt? p = .ok (some bytes)) :
    h.system.Holds p bytes := by
  refine ⟨isFile_of_fileAt? hfile, ?_⟩
  simp only [system, hfile]
  rfl

theorem unexamined_of_tooLong (hlong : h.tree.TooLong h.directory p) :
    h.system.Unexamined p .nameTooLong := by
  have hentry : h.entryAt? p = .error .nameTooLong := Tree.entryAt?_error_iff.mpr ⟨rfl, hlong⟩
  exact ⟨hlong.1, by simp only [system, hentry]; rfl, rfl⟩

/-- The errors of a host never say that links lead round. -/
theorem examine_isLoop {e : SystemError} (he : h.system.examine p = .error e) :
    e.isLoop = false := by
  simp only [system] at he
  cases hentry : h.entryAt? p with
  | error e' =>
    rw [hentry] at he
    obtain rfl := Except.error.inj he
    rw [(Tree.entryAt?_error_iff.mp hentry).1]
    rfl
  | ok found =>
    rw [hentry] at he
    cases found <;> cases he
    rfl

theorem resolve_eq (h : Host) (p : Path) : h.system.resolve p =
    if p.hasNul then .error .embeddedNul
    else .ok (Location.walk (if p.isAbsolute then [] else h.directory) p.parts) := by
  have hfollow : h.system.follow p =
      .ok (Location.walk (if p.isAbsolute then [] else h.directory) p.parts) := rfl
  rw [System.resolve, hfollow]
  by_cases hnul : p.hasNul = true
  · rw [if_pos hnul, if_pos hnul]
  · rw [if_neg hnul, if_neg hnul]
    dsimp only
    split
    · next e he => rw [examine_isLoop he, if_neg Bool.false_ne_true]
    · rfl

end Files.Host

namespace Codec
open Utf16

/-- Bytes that hold a text in UTF-16, with the low byte first, but do not start with a mark. -/
structure Unmarked (bytes : List UInt8) : Prop where
  order : order? bytes = none
  text : ∃ s, s ≠ [] ∧ Utf16.decode .little bytes = .ok s

theorem decodeUtf16Marked_noMark_iff {bytes : List UInt8} :
    Encoding.decodeUtf16Marked bytes = .error .noMark ↔ Unmarked bytes := by
  unfold Encoding.decodeUtf16Marked
  cases horder : order? bytes with
  | some o =>
    refine ⟨fun h => ?_, fun h => ?_⟩
    · obtain ⟨u, -, hu⟩ := mapError_error_iff.mp h
      cases hu
    · rw [h.order] at horder
      cases horder
  | none =>
    cases hdecode : Utf16.decode .little bytes with
    | error u =>
      have hno : ¬ Unmarked bytes := by
        rintro ⟨-, s, -, hs⟩
        rw [hdecode] at hs
        cases hs
      simp [Except.mapError, bind, Except.bind, hno]
    | ok s =>
      have htext : Unmarked bytes ↔ s ≠ [] := by
        refine ⟨?_, fun hs => ⟨horder, s, hs, hdecode⟩⟩
        rintro ⟨-, s', hs', hdecode'⟩
        rwa [Except.ok.inj (hdecode.symm.trans hdecode')]
      cases s <;> simp [Except.mapError, bind, Except.bind, pure, Except.pure, htext, throw,
        throwThe, MonadExceptOf.throw]

theorem decodeUtf16Marked_ne_foreign {bytes : List UInt8} {message : String} :
    Encoding.decodeUtf16Marked bytes ≠ .error (.foreign message) := by
  unfold Encoding.decodeUtf16Marked
  intro h
  split at h
  · obtain ⟨u, -, hu⟩ := mapError_error_iff.mp h
    cases hu
  · rcases bind_error_iff.mp h with h | ⟨s, -, h⟩
    · obtain ⟨u, -, hu⟩ := mapError_error_iff.mp h
      cases hu
    · split at h <;> cases h

/-- An encoding has no faults but bytes that it cannot decode and, in UTF-16, a missing mark. -/
theorem decode_error_cases {e : Encoding} {bytes : List UInt8} {f : DecodeFault}
    (h : e.decode bytes = .error f) :
    (∃ u, f = .undecodable u) ∨ f = .noMark ∧ e = .utf16Marked ∧ Unmarked bytes := by
  have hbytes {x : Except Undecodable (List Char)} (hx : x.mapError .undecodable = .error f) :
      ∃ u, f = .undecodable u := by
    obtain ⟨u, -, rfl⟩ := mapError_error_iff.mp hx
    exact ⟨u, rfl⟩
  cases e with
  | utf8Marked => exact Or.inl (hbytes h)
  | utf8 => exact Or.inl (hbytes h)
  | ascii => exact Or.inl (hbytes h)
  | latin1 => cases h
  | utf16 o => exact Or.inl (hbytes h)
  | utf16Marked =>
    rw [Encoding.decode] at h
    cases f with
    | undecodable u => exact Or.inl ⟨u, rfl⟩
    | noMark => exact Or.inr ⟨rfl, rfl, decodeUtf16Marked_noMark_iff.mp h⟩
    | foreign message => exact absurd h decodeUtf16Marked_ne_foreign

theorem decode_noMark {bytes : List UInt8} (h : Unmarked bytes) :
    Encoding.utf16Marked.decode bytes = .error .noMark :=
  decodeUtf16Marked_noMark_iff.mpr h

/-- A name of an encoding; it has no null characters. -/
structure Encoding.Names (name : String) (e : Encoding) : Prop where
  plain : name.toList.contains '\x00' = false
  kind : Encoding.kind? name = some (.text e)

end Codec

namespace Script
open Files Codec

/-- The path of a script, seen from the base or else from the directory of the program. -/
def fullPath (s : System) (base : Option String) (path : String) : Except SystemError Path :=
  (base.elim (s.directory.map Location.toPath) fun text => .ok (Path.ofText text)).map
    (·.seenFrom (Path.ofText path))

/-- The faults of reading a script file that no report tells of. -/
inductive Escapes (s : System) (base : Option String) (path : String) (e : Encoding) : Escape → Prop
  | directory {err : SystemError} (hp : fullPath s base path = .error err) :
      Escapes s base path e (.path (.system err))
  | astray {p : Path} {f : PathFault} (hp : fullPath s base path = .ok p) (hf : s.Astray p f) :
      Escapes s base path e (.path f)
  | unexamined {l : Location} {err : SystemError} (hl : locate s base path = .ok l)
      (herr : s.Unexamined l.toPath err) : Escapes s base path e (.path (.system err))
  | unmarked {l : Location} {bytes : List UInt8} (hl : locate s base path = .ok l)
      (hfile : s.Holds l.toPath bytes) (he : e = .utf16Marked) (hbytes : Unmarked bytes) :
      Escapes s base path e .noMark

/-- The report that a file was not read. -/
def unread (path message : String) : Report where
  ok := false
  operation := "simulate"
  data := []
  error := some ⟨"Error", message, [("reason", .string message), ("source", .string path)]⟩
  remarks := none

section Loading
variable {s : System} {base : Option String} {name path : String} {e : Encoding} {l : Location}

theorem locate_eq (s : System) (base : Option String) (path : String) :
    locate s base path = ((fullPath s base path).mapError .system).bind s.resolve := by
  cases base with
  | some text => rfl
  | none =>
    unfold locate fullPath System.current
    dsimp only [Option.elim_none]
    cases s.directory <;> rfl

theorem locate_of_fullPath {p : Path} (hp : fullPath s base path = .ok p) :
    locate s base path = s.resolve p := by
  rw [locate_eq, hp]
  rfl

theorem load_of_locate_error {f : PathFault} (hl : locate s base path = .error f) :
    load s base name path = .error (.escape (.path f)) := by
  simp [load, hl, Except.mapError, bind, Except.bind]

theorem load_of_isFile_error {f : PathFault} (hl : locate s base path = .ok l)
    (hfile : s.isFile l.toPath = .error f) :
    load s base name path = .error (.escape (.path f)) := by
  simp [load, hl, hfile, Except.mapError, bind, Except.bind]

theorem load_of_isFile_false (hl : locate s base path = .ok l)
    (hfile : s.isFile l.toPath = .ok false) :
    load s base name path = .error (.unreadable (.notFound path)) := by
  simp [load, hl, hfile, Except.mapError, bind, Except.bind, throw, throwThe,
    MonadExceptOf.throw]

theorem load_of_isFile_true (hl : locate s base path = .ok l)
    (hfile : s.isFile l.toPath = .ok true) :
    load s base name path = readFile s l name path := by
  simp [load, hl, hfile, Except.mapError, bind, Except.bind]

/-- With a known encoding a file is opened, read and decoded, and each of these may fail. -/
theorem readFile_eq (he : e.Names name) : readFile s l name path =
    match s.contents l.toPath with
    | .error err => .error (.unreadable (.notOpened path err l))
    | .ok (.error err) => .error (.unreadable (.notRead path err))
    | .ok (.ok bytes) => decodeFile path e.decode bytes := by
  rw [readFile, if_neg (by rw [he.plain]; exact Bool.false_ne_true), decoderOf, he.kind]
  rcases s.contents l.toPath with _ | _ | _ <;> rfl

/-- A location of a script from which a regular file is opened and read. -/
theorem load_of_holds {bytes : List UInt8} (he : e.Names name) (hl : locate s base path = .ok l)
    (hfile : s.Holds l.toPath bytes) : load s base name path = decodeFile path e.decode bytes := by
  rw [load_of_isFile_true hl hfile.isFile, readFile_eq he, hfile.contents]

/-- How a load comes to its result. -/
inductive Loads (s : System) (base : Option String) (path : String) (e : Encoding) :
    Except ReadFailure (List Char) → Prop
  | lost {f : PathFault} (hl : locate s base path = .error f) :
      Loads s base path e (.error (.escape (.path f)))
  | unexamined {l : Location} {f : PathFault} (hl : locate s base path = .ok l)
      (hfile : s.isFile l.toPath = .error f) : Loads s base path e (.error (.escape (.path f)))
  | missing {l : Location} (hl : locate s base path = .ok l)
      (hfile : s.isFile l.toPath = .ok false) :
      Loads s base path e (.error (.unreadable (.notFound path)))
  | notOpened {l : Location} {err : SystemError} (hl : locate s base path = .ok l)
      (hfile : s.isFile l.toPath = .ok true) (hopen : s.contents l.toPath = .error err) :
      Loads s base path e (.error (.unreadable (.notOpened path err l)))
  | notRead {l : Location} {err : SystemError} (hl : locate s base path = .ok l)
      (hfile : s.isFile l.toPath = .ok true) (hread : s.contents l.toPath = .ok (.error err)) :
      Loads s base path e (.error (.unreadable (.notRead path err)))
  | undecodable {l : Location} {bytes : List UInt8} {u : Undecodable}
      (hl : locate s base path = .ok l) (hfile : s.Holds l.toPath bytes)
      (hdecode : e.decode bytes = .error (.undecodable u)) :
      Loads s base path e (.error (.unreadable (.undecodable path u)))
  | unmarked {l : Location} {bytes : List UInt8} (hl : locate s base path = .ok l)
      (hfile : s.Holds l.toPath bytes) (he : e = .utf16Marked) (hbytes : Unmarked bytes) :
      Loads s base path e (.error (.escape .noMark))
  | decoded {l : Location} {bytes : List UInt8} {text : List Char}
      (hl : locate s base path = .ok l) (hfile : s.Holds l.toPath bytes)
      (hdecode : e.decode bytes = .ok text) : Loads s base path e (.ok (unifyLineEnds text))

theorem loads_of_holds {bytes : List UInt8} (hl : locate s base path = .ok l)
    (hfile : s.Holds l.toPath bytes) : Loads s base path e (decodeFile path e.decode bytes) := by
  cases hdecode : e.decode bytes with
  | ok text =>
    rw [decodeFile, hdecode]
    exact .decoded hl hfile hdecode
  | error fault =>
    rw [decodeFile, hdecode]
    rcases decode_error_cases hdecode with ⟨u, rfl⟩ | ⟨rfl, hmarked, hbytes⟩
    · exact .undecodable hl hfile hdecode
    · exact .unmarked hl hfile hmarked hbytes

theorem load_loads (s : System) (base : Option String) (path : String) (he : e.Names name) :
    Loads s base path e (load s base name path) := by
  cases hl : locate s base path with
  | error f =>
    rw [load_of_locate_error hl]
    exact .lost hl
  | ok l =>
    cases hfile : s.isFile l.toPath with
    | error f =>
      rw [load_of_isFile_error hl hfile]
      exact .unexamined hl hfile
    | ok found =>
      cases found with
      | false =>
        rw [load_of_isFile_false hl hfile]
        exact .missing hl hfile
      | true =>
        rw [load_of_isFile_true hl hfile, readFile_eq he]
        split
        · next hopen => exact .notOpened hl hfile hopen
        · next hread => exact .notRead hl hfile hread
        · next hcontents => exact loads_of_holds hl ⟨hfile, hcontents⟩

theorem escapes_of_locate_error {f : PathFault} (hl : locate s base path = .error f) :
    Escapes s base path e (.path f) := by
  cases hp : fullPath s base path with
  | error err =>
    rw [locate_eq, hp] at hl
    obtain rfl : PathFault.system err = f := Except.error.inj hl
    exact .directory hp
  | ok p =>
    rw [locate_of_fullPath hp] at hl
    exact .astray hp (System.resolve_error_iff.mp hl)

/-- A file that cannot be loaded for another reason than one of those is reported. -/
theorem load_escape_iff (he : e.Names name) {f : Escape} :
    load s base name path = .error (.escape f) ↔ Escapes s base path e f := by
  constructor
  · intro hload
    have hloads := load_loads s base path he
    rw [hload] at hloads
    cases hloads with
    | lost hl => exact escapes_of_locate_error hl
    | unexamined hl hfile =>
      obtain ⟨err, rfl, herr⟩ := System.isFile_error_iff.mp hfile
      exact .unexamined hl herr
    | unmarked hl hfile hmarked hbytes => exact .unmarked hl hfile hmarked hbytes
  · intro hescapes
    cases hescapes with
    | directory hp =>
      refine load_of_locate_error ?_
      rw [locate_eq, hp]
      rfl
    | astray hp hf =>
      refine load_of_locate_error ?_
      rw [locate_of_fullPath hp]
      exact System.resolve_error_iff.mpr hf
    | unexamined hl herr =>
      exact load_of_isFile_error hl (System.isFile_error_iff.mpr ⟨_, rfl, herr⟩)
    | unmarked hl hfile hmarked hbytes =>
      subst hmarked
      rw [load_of_holds he hl hfile, decodeFile, decode_noMark hbytes]

end Loading

end Script

namespace Simulation
open Files Codec

section File
variable {s : System} {base : Option String} {name path : String}

theorem ofFile_error_iff {f : Script.Escape} :
    ofFile s base name path = .error f ↔ Script.load s base name path = .error (.escape f) := by
  unfold ofFile
  split
  · next hload => simp [hload]
  · next hload => simp [hload]
  · next hload => simp [hload]

theorem ofFile_of_text {text : List Char} (hload : Script.load s base name path = .ok text) :
    ofFile s base name path = .ok (ofText text (some path)) := by
  simp [ofFile, hload]

/-- What is unreadable is reported with the text of its path. -/
theorem ofFile_of_unreadable {u : Script.Unreadable}
    (hload : Script.load s base name path = .error (.unreadable u)) :
    ∃ sim, ofFile s base name path = .ok sim ∧
      sim.result = .ok (Script.unread path u.message) :=
  ⟨failing [] u.fault (some path), by simp [ofFile, hload], rfl⟩

end File

/-- A simulation of a script file: the report of a file that is missing, is not opened or read, or
does not decode, or the run of its text. -/
inductive Answers (s : System) (base : Option String) (path : String) (e : Encoding) :
    Simulation → Prop
  | missing {l : Location} {sim : Simulation} (hl : Script.locate s base path = .ok l)
      (hfile : s.isFile l.toPath = .ok false)
      (hr : sim.result = .ok (Script.unread path ("File not found: " ++ path))) :
      Answers s base path e sim
  | notOpened {l : Location} {err : SystemError} {sim : Simulation}
      (hl : Script.locate s base path = .ok l) (hfile : s.isFile l.toPath = .ok true)
      (hopen : s.contents l.toPath = .error err)
      (hr : sim.result = .ok
        (Script.unread path ("Failed to read file: " ++ path ++ ". " ++ err.messageAt l))) :
      Answers s base path e sim
  | notRead {l : Location} {err : SystemError} {sim : Simulation}
      (hl : Script.locate s base path = .ok l) (hfile : s.isFile l.toPath = .ok true)
      (hread : s.contents l.toPath = .ok (.error err))
      (hr : sim.result = .ok
        (Script.unread path ("Failed to read file: " ++ path ++ ". " ++ err.message))) :
      Answers s base path e sim
  | undecodable {l : Location} {bytes : List UInt8} {u : Undecodable} {sim : Simulation}
      (hl : Script.locate s base path = .ok l) (hfile : s.Holds l.toPath bytes)
      (hdecode : e.decode bytes = .error (.undecodable u))
      (hr : sim.result = .ok
        (Script.unread path ("Failed to read file: " ++ path ++ ". " ++ u.message))) :
      Answers s base path e sim
  | run {l : Location} {bytes : List UInt8} {text : List Char}
      (hl : Script.locate s base path = .ok l) (hfile : s.Holds l.toPath bytes)
      (hdecode : e.decode bytes = .ok text) :
      Answers s base path e (ofText (unifyLineEnds text) (some path))

theorem ofFile_answers {s : System} {base : Option String} {name path : String} {e : Encoding}
    (he : e.Names name) {sim : Simulation} (hsim : ofFile s base name path = .ok sim) :
    Answers s base path e sim := by
  have hunreadable {u : Script.Unreadable}
      (hload : Script.load s base name path = .error (.unreadable u)) :
      sim.result = .ok (Script.unread path u.message) := by
    obtain ⟨sim', hsim', hreport⟩ := ofFile_of_unreadable hload
    rwa [Except.ok.inj (hsim.symm.trans hsim')]
  have hloads := Script.load_loads s base path he
  cases hload : Script.load s base name path with
  | ok text =>
    rw [hload] at hloads
    obtain rfl := Except.ok.inj ((ofFile_of_text hload).symm.trans hsim)
    cases hloads with
    | decoded hl hfile hdecode => exact .run hl hfile hdecode
  | error failure =>
    rw [hload] at hloads
    cases failure with
    | escape f => cases (ofFile_error_iff.mpr hload).symm.trans hsim
    | unreadable u =>
      have hreport := hunreadable hload
      cases hloads with
      | missing hl hfile => exact .missing hl hfile hreport
      | notOpened hl hfile hopen => exact .notOpened hl hfile hopen hreport
      | notRead hl hfile hread => exact .notRead hl hfile hread hreport
      | undecodable hl hfile hdecode => exact .undecodable hl hfile hdecode hreport

/-- With a known encoding, a script file is run, or it is reported that it is missing, was not
opened or read, or does not decode. Only these faults end the run: a directory, a path or links from
which no location is made, a location that the system does not examine, and UTF-16 without a
mark. -/
theorem ofFile_contained {s : System} {base : Option String} {name path : String} {e : Encoding}
    (he : e.Names name) :
    (∀ f, ofFile s base name path = .error f ↔ Script.Escapes s base path e f) ∧
      ∀ sim, ofFile s base name path = .ok sim → Answers s base path e sim :=
  ⟨fun _ => ofFile_error_iff.trans (Script.load_escape_iff he), fun _ => ofFile_answers he⟩

/-- A null character in the path, a name of 256 bytes, UTF-16 without a mark, a location that must
not be examined, and links that lead round. A file that must not be opened is reported. -/
theorem ofFile_contained_faults :
    let h : Host := ⟨⟨[(["f"], .file [0x35, 0, 0x20, 0, 0x35, 0, 0x0a, 0])]⟩, [], []⟩
    let denied : SystemError := ⟨13, "Permission denied"⟩
    let sealed : System := { h.system with examine := fun _ => .error denied }
    let looped : System :=
      { h.system with examine := fun _ => .error ⟨40, "Too many levels of symbolic links"⟩ }
    let locked : System := { h.system with contents := fun _ => .error denied }
    let long := String.ofList (List.replicate 256 'n')
    Encoding.utf8.Names "utf-8" ∧ Encoding.utf16Marked.Names "utf-16" ∧
      ofFile h none "utf-8" "a\x00b" = .error (.path .embeddedNul) ∧
      ofFile h none "utf-8" long = .error (.path .nameTooLong) ∧
      ofFile h none "utf-16" "f" = .error .noMark ∧
      ofFile sealed none "utf-8" "f" = .error (.path (.system denied)) ∧
      ofFile looped none "utf-8" "f" = .error (.path (.linkLoop ⟨1, ["f"]⟩)) ∧
      ∃ sim, ofFile locked none "utf-8" "f" = .ok sim ∧ sim.result = .ok (Script.unread "f"
        "Failed to read file: f. [Errno 13] Permission denied: \x27/f\x27") := by
  intro h denied sealed looped locked long
  have hutf8 : Encoding.utf8.Names "utf-8" := ⟨by decide, by decide +kernel⟩
  have hutf16 : Encoding.utf16Marked.Names "utf-16" := ⟨by decide, by decide +kernel⟩
  have hother (c : Char) (hc : c ≠ 'n') : c ∉ List.replicate 256 'n' :=
    fun hmem => hc (List.eq_of_mem_replicate hmem)
  have hpath : Path.ofText long = ⟨0, [long]⟩ := by
    refine Path.ofText_name (hother '/' (by decide)) (List.cons_ne_nil 'n' _) fun hdot => ?_
    exact hother '.' (by decide) (hdot ▸ List.mem_singleton_self '.')
  have hplain : Path.hasNul ⟨1, [long]⟩ = false := by
    have hnul : long.toList.contains '\x00' = false := by
      rw [String.toList_ofList, List.contains_eq_mem]
      exact decide_eq_false (hother '\x00' (by decide))
    simp only [Path.hasNul, List.any_cons, List.any_nil, hnul, Bool.or_false]
  have hlong : h.tree.TooLong h.directory (Location.toPath [long]) :=
    ⟨hplain, Or.inr (Tree.longName_here (by decide +kernel) (by decide +kernel))⟩
  have hl : Script.locate h none long = .ok [long] := by
    have hfull : Script.fullPath h none long = .ok ⟨1, [long]⟩ := by
      rw [Script.fullPath, hpath]
      rfl
    have hstack : Location.walk [] [long] = [long] := by decide +kernel
    rw [Script.locate_of_fullPath hfull, Host.resolve_eq, hplain]
    exact congrArg Except.ok hstack
  have hf : Script.locate h none "f" = .ok ["f"] := by decide +kernel
  have hbytes : Unmarked [0x35, 0, 0x20, 0, 0x35, 0, 0x0a, 0] :=
    ⟨rfl, "5 5\n".toList, by decide, by decide +kernel⟩
  have hnul : Script.fullPath h none "a\x00b" = .ok ⟨1, ["a\x00b"]⟩ := by decide +kernel
  have hfile : Script.fullPath h none "f" = .ok ⟨1, ["f"]⟩ := by decide +kernel
  have hsealed : Script.locate sealed none "f" = .ok ["f"] := by decide +kernel
  have hlocked : Script.load locked none "utf-8" "f" =
      .error (.unreadable (.notOpened "f" denied ["f"])) := by decide +kernel
  have hloop : looped.Astray ⟨1, ["f"]⟩ (.linkLoop ⟨1, ["f"]⟩) :=
    @System.Astray.loopAtEnd looped ⟨1, ["f"]⟩ ["f"] _ (by decide +kernel) (by decide +kernel)
      rfl rfl
  refine ⟨hutf8, hutf16, ?_, ?_, ?_, ?_, ?_, ?_⟩
  · exact ((ofFile_contained hutf8).1 _).mpr (.astray hnul (.nul (by decide +kernel)))
  · exact ((ofFile_contained hutf8).1 _).mpr (.unexamined hl (Host.unexamined_of_tooLong hlong))
  · exact ((ofFile_contained hutf16).1 _).mpr
      (.unmarked hf (Host.holds_of_fileAt? (by decide +kernel)) rfl hbytes)
  · exact ((ofFile_contained hutf8).1 _).mpr
      (.unexamined hsealed ⟨by decide +kernel, rfl, by decide⟩)
  · exact ((ofFile_contained hutf8).1 _).mpr (.astray hfile hloop)
  · have hmessage : (Script.Unreadable.notOpened "f" denied ["f"]).message =
        "Failed to read file: f. [Errno 13] Permission denied: \x27/f\x27" := by decide +kernel
    exact hmessage ▸ ofFile_of_unreadable hlocked

end Simulation

end RoverFleet
