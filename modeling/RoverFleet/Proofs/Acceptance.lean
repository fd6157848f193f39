import RoverFleet.Proofs.Locality

/-!
# Lines that are accepted

What the words of a line are when it is read, and how the lines of a script that is accepted are
read: the first as the plateau, and two of the others for each rover, which is placed as the first
of them says before the second is taken up.
-/
namespace RoverFleet.Script

variable {k n : ℕ} {p q : Plateau} {r : Rover} {line : List Char}

theorem readPlateau_ok (h : readPlateau k line = .ok p) :
    ∃ a b x y, Text.words line = [a, b] ∧ Literal.read a = .ok (some x) ∧
      Literal.read b = .ok (some y) ∧ Plateau.ofBounds "1" x y = .ok p := by
  unfold readPlateau at h
  split at h
  · cases h
  · split at h
    · next a b hw =>
      obtain ⟨first, hfirst, hrest⟩ := bind_ok_iff.mp h
      obtain ⟨second, hsecond, hbounds⟩ := bind_ok_iff.mp hrest
      split at hbounds
      · next x y =>
        exact ⟨a, b, x, y, hw, mapError_ok_iff.mp hfirst, mapError_ok_iff.mp hsecond,
          mapError_ok_iff.mp hbounds⟩
      · cases hbounds
    · cases h

theorem readRover_ok (h : readRover k n line = .ok r) :
    ∃ a b c x y, Text.words line = [a, b, c] ∧ Literal.read a = .ok (some x) ∧
      Literal.read b = .ok (some y) ∧ Heading.ofChars? (Text.upper c) = some r.heading ∧
      Rover.startCell x y = .ok r.cell := by
  unfold readRover at h
  split at h
  · cases h
  · split at h
    · next a b c hw =>
      obtain ⟨first, hfirst, hrest⟩ := bind_ok_iff.mp h
      obtain ⟨second, hsecond, hpose⟩ := bind_ok_iff.mp hrest
      split at hpose
      · next x y =>
        split at hpose
        · next heading hheading =>
          obtain ⟨cell, hcell, hrover⟩ := bind_ok_iff.mp hpose
          cases hrover
          exact ⟨a, b, c, x, y, hw, mapError_ok_iff.mp hfirst, mapError_ok_iff.mp hsecond,
            hheading, mapError_ok_iff.mp hcell⟩
        · cases hpose
      · cases hpose
    · cases h

theorem readCommands_ok {cs : List Command} (h : readCommands k n line = .ok cs) :
    ∀ c ∈ Text.upper line, c ∈ ['L', 'R', 'M'] := by
  unfold readCommands at h
  split at h
  · cases h
  · have hpass := ((decides_letters k n (Text.upper line)).ok_iff.mp h).1
    intro c hc
    exact hpass _ (List.mem_map_of_mem hc)

/-- The rovers that a journal tells were placed, as they stood then. -/
def placedRovers (journal : List Entry) : List Rover :=
  journal.filterMap fun e => match e with
    | .placed r => some r
    | _ => none

/-- The rovers of a run that succeeds were placed as their position lines say, and their commands
lines were read. -/
theorem runRovers_lines {ps : List (List Char × List Char)}
    (h : (runRovers k n p ps).result = .ok q) :
    q.bounds = p.bounds ∧
    List.Forall₂ (fun r pair => (∃ k n, readRover k n pair.1 = .ok r) ∧
      ∃ k n cs, readCommands k n pair.2 = .ok cs)
      (placedRovers (runRovers k n p ps).journal) ps := by
  induction ps generalizing k n p with
  | nil =>
    cases h
    exact ⟨rfl, .nil⟩
  | cons pair rest ih =>
    obtain ⟨position, commands⟩ := pair
    obtain ⟨r, cs, r', he, hc, hr, hrest⟩ := runRovers_cons_ok_iff.mp h
    obtain ⟨hbounds, hlines⟩ := ih hrest
    have hd : drive (k + 2) n (p.register r) r commands = .ok (r', cs.length) :=
      drive_ok_iff.mpr ⟨cs, hc, hr, rfl⟩
    refine ⟨hbounds.trans (Plateau.register_bounds p r'), ?_⟩
    simp only [runRovers, he, hd]
    exact .cons ⟨⟨_, _, (enter_ok_iff.mp he).1⟩, _, _, cs, hc⟩ hlines

/-- A script that is accepted is its plateau line and two lines for each rover. -/
theorem accepted_lines {text : List Char} (h : (run text).result = .ok p) :
    ∃ (first : List Char) (ps : List (List Char × List Char)) (start : Plateau),
      lines text = first :: ps.flatMap (fun pair => [pair.1, pair.2]) ∧
      readPlateau 1 first = .ok start ∧ p.bounds = start.bounds ∧
      List.Forall₂ (fun r pair => (∃ k n, readRover k n pair.1 = .ok r) ∧
        ∃ k n cs, readCommands k n pair.2 = .ok cs) (placedRovers (run text).journal) ps := by
  obtain ⟨first, rest, start, hl, hs, hrest⟩ := run_ok_iff.mp h
  obtain ⟨hbounds, hlines⟩ := runRovers_lines hrest
  obtain ⟨hstart, hnone⟩ := start_orderly hs
  refine ⟨first, pairs rest, start, ?_, hs, hbounds, ?_⟩
  · obtain ⟨-, hne⟩ := runRovers_length hstart (by simp [hnone]) hrest
    have heven : rest.length % 2 = 0 := by
      rw [length_of_pairs hne]
      omega
    rw [hl, flatMap_pairs, if_pos heven]
  · simpa [run, hl, runLines, hs, placedRovers] using hlines

end RoverFleet.Script
