import RoverFleet.Proofs.Lines
import RoverFleet.Proofs.Reading

/-!
# Resolving the paths of scripts

A script is found by a walk over the pieces between the slashes of texts: that of the host's
directory, that of the base, and that of the path. A text that starts with a slash begins at the
root, so that what came before does not count. The walk ends in a location in canonical form, whose
text leads back to it from everywhere.
-/
namespace RoverFleet

/-- The pieces of a text do not hold the character between them, and nothing that the text does not
hold. -/
theorem Text.mem_splitOn {d : Char} {s piece : List Char} (h : piece ∈ s.splitOn d) :
    d ∉ piece ∧ ∀ c ∈ piece, c ∈ s := by
  induction s generalizing piece with
  | nil =>
    obtain rfl : piece = [] := by simpa using h
    simp
  | cons e rest ih =>
    obtain ⟨first, more, hrest⟩ := List.exists_cons_of_ne_nil (List.splitOn_ne_nil d rest)
    rw [hrest] at ih
    by_cases he : e = d
    · have hsplit : (e :: rest).splitOn d = [] :: first :: more := by
        simp [List.splitOn_cons_eq_if_modifyHead, he, hrest]
      rw [hsplit] at h
      rcases List.mem_cons.mp h with rfl | h
      · simp
      · exact ⟨(ih h).1, fun c hc => List.mem_cons_of_mem e ((ih h).2 c hc)⟩
    · have hsplit : (e :: rest).splitOn d = (e :: first) :: more := by
        simp [List.splitOn_cons_eq_if_modifyHead, he, hrest]
      rw [hsplit] at h
      rcases List.mem_cons.mp h with rfl | h
      · obtain ⟨hd, hfirst⟩ := ih (List.mem_cons_self (a := first))
        refine ⟨by simp [Ne.symm he, hd], fun c hc => ?_⟩
        exact List.mem_cons.mpr ((List.mem_cons.mp hc).imp_right (hfirst c))
      · have hmore := ih (List.mem_cons_of_mem first h)
        exact ⟨hmore.1, fun c hc => List.mem_cons_of_mem e (hmore.2 c hc)⟩

namespace Files

/-- A name that a directory can hold. -/
structure IsName (part : String) : Prop where
  ne : part ≠ ""
  notDot : part ≠ "."
  notDots : part ≠ ".."
  noSlash : '/' ∉ part.toList
  noNul : '\x00' ∉ part.toList

namespace Location

/-- All components are names. -/
def Canonical (l : Location) : Prop := ∀ part ∈ l, IsName part

/-- Where one piece of a text leads: nothing and a dot stay, two dots go up, which stays at the
root. -/
def go (here : Location) (piece : List Char) : Location :=
  if piece = [] ∨ piece = ['.'] then here
  else if piece = ['.', '.'] then here.dropLast
  else here ++ [String.ofList piece]

/-- Where a text leads, seen from a place. -/
def follow (here : Location) (text : String) : Location :=
  (text.toList.splitOn '/').foldl go (if text.toList.head? = some '/' then [] else here)

theorem canonical_nil : Canonical [] := by simp [Canonical]

theorem Canonical.go {here : Location} (hc : here.Canonical) {piece : List Char}
    (hslash : '/' ∉ piece) (hnul : '\x00' ∉ piece) : (here.go piece).Canonical := by
  unfold Location.go
  split_ifs with hstay hup
  · exact hc
  · exact fun part hpart => hc part (List.mem_of_mem_dropLast hpart)
  · obtain ⟨hne, hdot⟩ := not_or.mp hstay
    intro part hpart
    rcases List.mem_append.mp hpart with hpart | hpart
    · exact hc part hpart
    · obtain rfl := List.mem_singleton.mp hpart
      constructor <;> simpa [← String.toList_inj]

theorem Canonical.goes {here : Location} (hc : here.Canonical) {pieces : List (List Char)}
    (h : ∀ piece ∈ pieces, '/' ∉ piece ∧ '\x00' ∉ piece) :
    Canonical (pieces.foldl Location.go here) := by
  induction pieces generalizing here with
  | nil => exact hc
  | cons piece rest ih =>
    obtain ⟨⟨hslash, hnul⟩, hrest⟩ := List.forall_mem_cons.mp h
    exact ih (hc.go hslash hnul) hrest

theorem Canonical.follow {here : Location} (hc : here.Canonical) {text : String}
    (hnul : '\x00' ∉ text.toList) : (here.follow text).Canonical := by
  have hpieces : ∀ piece ∈ text.toList.splitOn '/', '/' ∉ piece ∧ '\x00' ∉ piece := by
    intro piece hpiece
    obtain ⟨hslash, hchars⟩ := Text.mem_splitOn hpiece
    exact ⟨hslash, fun h => hnul (hchars _ h)⟩
  unfold Location.follow
  split_ifs
  · exact canonical_nil.goes hpieces
  · exact hc.goes hpieces

/-- Names are put one behind the other. -/
theorem Canonical.walk {l : Location} (hl : l.Canonical) (here : Location) :
    here.walk l = here ++ l := by
  induction l generalizing here with
  | nil => simp [Location.walk]
  | cons part rest ih =>
    obtain ⟨hpart, hrest⟩ := List.forall_mem_cons.mp hl
    have hpush : here.push part = here ++ [part] := if_neg hpart.notDots
    calc here.walk (part :: rest) = (here.push part).walk rest := rfl
      _ = here ++ part :: rest := by rw [hpush, ih hrest, List.append_assoc]; rfl

end Location

namespace Path
open Location

/-- The pieces that fall away when a path is read lead nowhere. -/
theorem walk_components (s : List Char) (here : Location) :
    here.walk (components s) = (s.splitOn '/').foldl go here := by
  unfold components
  generalize s.splitOn '/' = pieces
  induction pieces generalizing here with
  | nil => rfl
  | cons piece rest ih =>
    rw [List.foldl_cons, ← ih, List.map_cons, List.filter_cons, go]
    by_cases hstay : piece = [] ∨ piece = ['.']
    · have hfalls : (String.ofList piece ≠ "" && String.ofList piece ≠ ".") = false := by
        rcases hstay with rfl | rfl <;> rfl
      rw [if_pos hstay, hfalls, if_neg Bool.false_ne_true]
    · have hkept : (String.ofList piece ≠ "" && String.ofList piece ≠ ".") = true := by
        simpa [← String.toList_inj] using hstay
      have hdots : String.ofList piece = ".." ↔ piece = ['.', '.'] := by
        simp [← String.toList_inj]
      rw [if_neg hstay, hkept, if_pos rfl]
      change (here.push (String.ofList piece)).walk _ = _
      simp only [push, hdots]

theorem isAbsolute_ofText (text : String) :
    (ofText text).isAbsolute = true ↔ text.toList.head? = some '/' := by
  unfold ofText isAbsolute
  cases text.toList with
  | nil => simp
  | cons c rest =>
    by_cases hc : c = '/'
    · simp only [hc, List.takeWhile_cons, decide_true, if_true, List.length_cons]
      split_ifs <;> simp
    · simp [hc]

theorem follow_eq_walk (here : Location) (text : String) :
    here.follow text =
      Location.walk (if (ofText text).isAbsolute then [] else here) (ofText text).parts := by
  simp only [follow, isAbsolute_ofText]
  exact (walk_components text.toList _).symm

theorem hasNul_ofText {text : String} (h : '\x00' ∉ text.toList) :
    (ofText text).hasNul = false := by
  simp only [hasNul, ofText, components, List.any_eq_false, List.mem_filter, List.mem_map]
  rintro part ⟨⟨piece, hpiece, rfl⟩, -⟩
  simpa using fun hc => h ((Text.mem_splitOn hpiece).2 _ hc)

theorem seenFrom_parts (base p : Path) (here : Location) :
    Location.walk (if (base.seenFrom p).isAbsolute then [] else here) (base.seenFrom p).parts =
      Location.walk (if p.isAbsolute then [] else
        Location.walk (if base.isAbsolute then [] else here) base.parts) p.parts := by
  unfold seenFrom
  split_ifs <;> simp_all [isAbsolute, Location.walk]

theorem hasNul_seenFrom (base p : Path) :
    (base.seenFrom p).hasNul = (!p.isAbsolute && base.hasNul || p.hasNul) := by
  unfold seenFrom
  split_ifs with habs <;> simp [habs, hasNul]

end Path

namespace Location
variable {l : Location}

theorem splitOn_text (hl : l.Canonical) (hne : l ≠ []) :
    l.text.toList.splitOn '/' = [] :: l.map String.toList := by
  have htext : l.text.toList = ['/'].intercalate ([] :: l.map String.toList) := by
    cases l with
    | nil => exact absurd rfl hne
    | cons part rest => simp [text, String.toList_intercalate]
  have hslash : ∀ piece ∈ [] :: l.map String.toList, '/' ∉ piece := by
    simpa using fun part hpart => (hl part hpart).noSlash
  rw [htext, List.splitOn_intercalate '/' hslash (by simp)]

/-- The text of a location is the path of its components from the root. -/
theorem ofText_text (hl : l.Canonical) : Path.ofText l.text = l.toPath := by
  cases l with
  | nil => decide +kernel
  | cons part rest =>
    obtain ⟨hpart, -⟩ := List.forall_mem_cons.mp hl
    obtain ⟨c, cs, hchars⟩ := List.exists_cons_of_ne_nil
      (fun h => hpart.ne (String.toList_inj.mp h) : part.toList ≠ [])
    have hc : c ≠ '/' := fun hc => hpart.noSlash (by simp [hchars, hc])
    have hstart : (text (part :: rest)).toList.takeWhile (· = '/') = ['/'] := by
      cases rest <;> simp [text, String.toList_intercalate, hchars, hc]
    have hparts : Path.components (text (part :: rest)).toList = part :: rest := by
      have hkept : ∀ name ∈ part :: rest, (name ≠ "" && name ≠ ".") = true := by
        intro name hname
        simpa using ⟨(hl name hname).ne, (hl name hname).notDot⟩
      rw [Path.components, splitOn_text hl (List.cons_ne_nil _ _), List.map_cons, List.map_map,
        List.filter_cons_of_neg (by simp)]
      simpa [Function.comp_def] using hkept
    simp [Path.ofText, hstart, hparts, toPath]

/-- From anywhere, the text of a location leads to it. -/
theorem follow_text (hl : l.Canonical) (here : Location) : here.follow l.text = l := by
  rw [Path.follow_eq_walk, ofText_text hl]
  exact hl.walk []

theorem hasNul_toPath (hl : l.Canonical) : l.toPath.hasNul = false := by
  simpa [Path.hasNul, toPath] using fun part hpart => (hl part hpart).noNul

/-- A location is where its path leads. -/
theorem resolve_toPath (hl : l.Canonical) (h : Host) : h.system.resolve l.toPath = .ok l := by
  rw [Host.resolve_eq, hasNul_toPath hl, if_neg Bool.false_ne_true]
  exact congrArg Except.ok (hl.walk [])

end Location

end Files

namespace Script
open Files Location

/-- Where a path leads that is seen from the base, and this from the host's directory. -/
def destination (h : Host) (base : Option String) (path : String) : Location :=
  ((follow [] h.directory.text).follow (base.getD "")).follow path

section Locating
variable {h : Host} {base : Option String} {path : String}

/-- The path that a path is seen from: the base, or the directory of the host. -/
def startPath (h : Host) (base : Option String) : Path :=
  base.elim h.directory.toPath Path.ofText

theorem locate_host (h : Host) (base : Option String) (path : String) :
    locate h base path = h.system.resolve ((startPath h base).seenFrom (Path.ofText path)) :=
  locate_of_fullPath (by cases base <;> rfl)

theorem walk_startPath (hd : h.directory.Canonical) (base : Option String) :
    Location.walk (if (startPath h base).isAbsolute then [] else h.directory)
      (startPath h base).parts = (follow [] h.directory.text).follow (base.getD "") := by
  rw [follow_text hd]
  cases base with
  | none => exact hd.walk []
  | some text => exact (Path.follow_eq_walk h.directory text).symm

theorem locate_of_plain (hd : h.directory.Canonical) (hbase : '\x00' ∉ (base.getD "").toList)
    (hpath : '\x00' ∉ path.toList) : locate h base path = .ok (destination h base path) := by
  have hstart : (startPath h base).hasNul = false := by
    cases base with
    | none => exact hasNul_toPath hd
    | some text => exact Path.hasNul_ofText hbase
  have hplain : ((startPath h base).seenFrom (Path.ofText path)).hasNul = false := by
    rw [Path.hasNul_seenFrom, hstart, Path.hasNul_ofText hpath, Bool.and_false, Bool.or_false]
  rw [locate_host, Host.resolve_eq, hplain, if_neg Bool.false_ne_true, Path.seenFrom_parts,
    walk_startPath hd, destination, Path.follow_eq_walk _ path]

/-- The base and the host do not count for a path from the root. -/
theorem locate_of_absolute (habs : path.toList.head? = some '/')
    (hnul : (Path.ofText path).hasNul = false) : locate h base path = .ok (follow [] path) := by
  have hslash := (Path.isAbsolute_ofText path).mpr habs
  have hfull : (startPath h base).seenFrom (Path.ofText path) = Path.ofText path := if_pos hslash
  rw [locate_host, hfull, Host.resolve_eq, hnul, if_neg Bool.false_ne_true, Path.follow_eq_walk,
    hslash]
  rfl

theorem locate_text {l : Location} (hl : l.Canonical) : locate h base l.text = .ok l := by
  have hnul : (Path.ofText l.text).hasNul = false := by rw [ofText_text hl, hasNul_toPath hl]
  rw [locate_of_absolute (by simp [Location.text]) hnul, follow_text hl]

end Locating

/-- The failure, told of another path. -/
def Unreadable.about (path : String) : Unreadable → Unreadable
  | .notFound _ => .notFound path
  | .notOpened _ e l => .notOpened path e l
  | .unknownEncoding _ f => .unknownEncoding path f
  | .notRead _ e => .notRead path e
  | .undecodable _ u => .undecodable path u

def ReadFailure.about (path : String) : ReadFailure → ReadFailure
  | .unreadable u => .unreadable (u.about path)
  | .escape e => .escape e

section Spelling
variable {s : System} {base base' : Option String} {path path' : String} {l : Location}

theorem decodeFile_about (path path' : String) (decoder : Codec.Decoder) (bytes : List UInt8) :
    decodeFile path' decoder bytes = (decodeFile path decoder bytes).mapError (·.about path') := by
  unfold decodeFile
  cases decoder bytes with
  | ok text => rfl
  | error f => cases f <;> rfl

theorem readFile_about (s : System) (l : Location) (name path path' : String) :
    readFile s l name path' = (readFile s l name path).mapError (·.about path') := by
  unfold readFile
  split_ifs
  · rfl
  · cases s.contents l.toPath with
    | error e => rfl
    | ok opened =>
      cases Codec.decoderOf s.codec? name with
      | error f => rfl
      | ok decoder =>
        cases opened with
        | error e => rfl
        | ok bytes => exact decodeFile_about path path' decoder bytes

/-- Of two paths that lead to one location the same is read, and a failure tells of the one that
was given. -/
theorem load_about (hl : locate s base path = .ok l) (hl' : locate s base' path' = .ok l)
    (name : String) :
    load s base' name path' = (load s base name path).mapError (·.about path') := by
  cases hfile : s.isFile l.toPath with
  | error f =>
    rw [load_of_isFile_error hl hfile, load_of_isFile_error hl' hfile]
    rfl
  | ok found =>
    cases found with
    | false =>
      rw [load_of_isFile_false hl hfile, load_of_isFile_false hl' hfile]
      rfl
    | true =>
      rw [load_of_isFile_true hl hfile, load_of_isFile_true hl' hfile]
      exact readFile_about s l name path path'

end Spelling

/-- On a host whose directory is in canonical form, a path leads where the walk over the directory,
the base and the path leads, which is a location in canonical form. From the root a path leads to
the same location on every host and from every base, and so does the text of the location. Of two
paths to one location the same text is read and run, or reading them fails alike. -/
theorem locate_canonical {h : Host} (hd : h.directory.Canonical) (base : Option String)
    (path : String) (hbase : '\x00' ∉ (base.getD "").toList) (hpath : '\x00' ∉ path.toList) :
    let l := destination h base path
    locate h base path = .ok l ∧ l.Canonical ∧ Path.ofText l.text = l.toPath ∧
      (path.toList.head? = some '/' → l = follow [] path ∧
        ∀ (h' : Host) base', locate h' base' path = .ok l) ∧
      (∀ (h' : Host) base', locate h' base' l.text = .ok l) ∧
      ∀ base' path', '\x00' ∉ (Option.getD base' "").toList → '\x00' ∉ path'.toList →
        destination h base' path' = l → ∀ name,
          load h base' name path' = (load h base name path).mapError (·.about path') ∧
          ∀ s, load h base name path = .ok s →
            Simulation.ofFile h base name path = .ok (.ofText s (some path)) ∧
            Simulation.ofFile h base' name path' = .ok (.ofText s (some path')) := by
  intro l
  have hlocate : locate h base path = .ok l := locate_of_plain hd hbase hpath
  have hcanonical : l.Canonical := by
    have hstart : (follow [] h.directory.text).Canonical := by rwa [follow_text hd]
    exact (hstart.follow hbase).follow hpath
  refine ⟨hlocate, hcanonical, ofText_text hcanonical, ?_, fun _ _ => locate_text hcanonical, ?_⟩
  · intro habs
    have hroot : ∀ (h' : Host) base', locate h' base' path = .ok (follow [] path) :=
      fun _ _ => locate_of_absolute habs (Path.hasNul_ofText hpath)
    have hl : l = follow [] path := Except.ok.inj (hlocate.symm.trans (hroot h base))
    exact ⟨hl, hl ▸ hroot⟩
  · intro base' path' hbase' hpath' hsame name
    have hlocate' : locate h base' path' = .ok l := by
      rw [← hsame]
      exact locate_of_plain hd hbase' hpath'
    have hload := load_about hlocate hlocate' name
    refine ⟨hload, fun s hs => ⟨Simulation.ofFile_of_text hs, Simulation.ofFile_of_text ?_⟩⟩
    rw [hload, hs]
    rfl

/-- Two spellings of one path: each goes up above the root, and one of them drops the base. -/
theorem locate_canonical_two_spellings :
    let h : Host := ⟨⟨[(["rovers", "a"], .file [0x35, 0x20, 0x35])]⟩, ["home", "x"], []⟩
    let base := some "../.././.."
    let path := "rovers//b/../a/"
    let path' := "/../rovers/./a"
    h.directory.Canonical ∧ locate h base path = .ok ["rovers", "a"] ∧
      locate h base path' = .ok ["rovers", "a"] ∧
      load h base "utf-8" path = .ok "5 5".toList ∧
      Simulation.ofFile h base "utf-8" path' = .ok (.ofText "5 5".toList (some path')) := by
  intro h base path path'
  have hd : h.directory.Canonical := by
    intro part hpart
    simp only [h, List.mem_cons, List.not_mem_nil, or_false] at hpart
    rcases hpart with rfl | rfl <;> constructor <;> decide
  have hwalk : destination h base path = ["rovers", "a"] := by decide +kernel
  have hwalk' : destination h base path' = destination h base path := by decide +kernel
  have hload : load h base "utf-8" path = .ok "5 5".toList := by decide +kernel
  obtain ⟨hlocate, -, -, -, -, hsame⟩ :=
    locate_canonical hd base path (by decide) (by decide)
  obtain ⟨hlocate', -⟩ := locate_canonical hd base path' (by decide) (by decide)
  obtain ⟨-, hfile⟩ := hsame base path' (by decide) (by decide) hwalk' "utf-8"
  rw [hwalk] at hlocate hwalk'
  rw [hwalk'] at hlocate'
  exact ⟨hd, hlocate, hlocate', hload, (hfile _ hload).2⟩

end Script

end RoverFleet
