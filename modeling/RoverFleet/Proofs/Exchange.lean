import RoverFleet.Proofs.Lines
import RoverFleet.Proofs.Locality

/-!
# Exchanging rovers

Two rovers whose trails have no cell in common may be placed and driven in either order. The script
in which the lines of two such neighbours are exchanged ends with their poses exchanged and all
others as they were.
-/
namespace RoverFleet

/-- Exchanges the element at place `i` and the next one. -/
def exchange {α : Type} : ℕ → List α → List α
  | 0, a :: b :: rest => b :: a :: rest
  | i + 1, a :: rest => a :: exchange i rest
  | _, l => l

/-- Exchanges the pair of elements at place `i`, counted in pairs, and the next pair. -/
def exchangePairs {α : Type} : ℕ → List α → List α
  | 0, a :: b :: c :: d :: rest => c :: d :: a :: b :: rest
  | i + 1, a :: b :: rest => a :: b :: exchangePairs i rest
  | _, l => l

section Lists
variable {α β : Type}

theorem map_exchangePairs (f : α → β) (i : ℕ) (l : List α) :
    (exchangePairs i l).map f = exchangePairs i (l.map f) := by
  induction i generalizing l with
  | zero => rcases l with _ | ⟨a, _ | ⟨b, _ | ⟨c, _ | ⟨d, rest⟩⟩⟩⟩ <;> rfl
  | succ i ih =>
    rcases l with _ | ⟨a, _ | ⟨b, rest⟩⟩
    · rfl
    · rfl
    · simp [exchangePairs, ih]

theorem exchangePairs_perm (i : ℕ) (l : List α) : (exchangePairs i l).Perm l := by
  induction i generalizing l with
  | zero =>
    rcases l with _ | ⟨a, _ | ⟨b, _ | ⟨c, _ | ⟨d, rest⟩⟩⟩⟩
    · rfl
    · rfl
    · rfl
    · rfl
    · change ([c, d] ++ [a, b] ++ rest).Perm ([a, b] ++ [c, d] ++ rest)
      exact List.perm_append_comm.append_right rest
  | succ i ih =>
    rcases l with _ | ⟨a, _ | ⟨b, rest⟩⟩
    · rfl
    · rfl
    · exact ((ih rest).cons b).cons a

theorem exchangePairs_append {i : ℕ} {l : List α} (h : 2 * i + 4 ≤ l.length) (m : List α) :
    exchangePairs i (l ++ m) = exchangePairs i l ++ m := by
  induction i generalizing l with
  | zero =>
    rcases l with _ | ⟨a, _ | ⟨b, _ | ⟨c, _ | ⟨d, rest⟩⟩⟩⟩
    · simp at h
    · simp at h
    · simp at h
    · simp at h
    · rfl
  | succ i ih =>
    rcases l with _ | ⟨a, _ | ⟨b, rest⟩⟩
    · simp at h
    · simp at h
    · have hrest : 2 * i + 4 ≤ rest.length := by
        simp only [List.length_cons] at h
        omega
      simp [exchangePairs, ih hrest]

end Lists

namespace Rover

def pose (r : Rover) : Cell × Heading := (r.cell, r.heading)

@[simp] theorem withId_pose (id : String) (r : Rover) : (r.withId id).pose = r.pose := rfl

end Rover

namespace Script
open Plateau Text

theorem readRover_withId {k m n : ℕ} {line : List Char} {r : Rover}
    (h : readRover k m line = .ok r) (k' : ℕ) :
    readRover k' n line = .ok (r.withId (toString n)) := by
  unfold readRover at h ⊢
  split at h
  · cases h
  · next hne =>
    rw [if_neg hne]
    split at h
    · next first second third hw =>
      obtain ⟨x, hx, h⟩ := bind_ok_iff.mp h
      obtain ⟨y, hy, h⟩ := bind_ok_iff.mp h
      refine bind_ok_iff.mpr ⟨x, hx, bind_ok_iff.mpr ⟨y, hy, ?_⟩⟩
      split at h
      · split at h
        · obtain ⟨c, hc, h⟩ := bind_ok_iff.mp h
          cases h
          exact bind_ok_iff.mpr ⟨c, hc, rfl⟩
        · cases h
      · cases h
    · cases h

theorem pairs_exchangePairs {ls : List (List Char)} (h : ls.length % 2 = 0) (i : ℕ) :
    pairs (exchangePairs i ls) = exchange i (pairs ls) := by
  induction i generalizing ls with
  | zero =>
    rcases ls with _ | ⟨a, _ | ⟨b, _ | ⟨c, _ | ⟨d, rest⟩⟩⟩⟩
    · rfl
    · simp at h
    · rfl
    · simp at h
    · rfl
  | succ i ih =>
    rcases ls with _ | ⟨a, _ | ⟨b, rest⟩⟩
    · rfl
    · simp at h
    · have hrest : rest.length % 2 = 0 := by
        simp only [List.length_cons] at h
        omega
      simp [exchangePairs, exchange, pairs, ih hrest]

theorem readCommands_renumber {k m : ℕ} {line : List Char} {cs : List Command}
    (h : readCommands k m line = .ok cs) (k' n : ℕ) : readCommands k' n line = .ok cs := by
  unfold readCommands at h ⊢
  split at h
  · cases h
  · next hne =>
    obtain ⟨hpass, rfl⟩ := (decides_letters k m (upper line)).ok_iff.mp h
    rw [if_neg hne]
    refine (decides_letters k' n (upper line)).ok_iff.mpr ⟨?_, rfl⟩
    intro check hcheck
    obtain ⟨c, hc, rfl⟩ := List.mem_map.mp hcheck
    exact hpass ⟨c ∈ ['L', 'R', 'M'], .malformed k (.command m c)⟩ (List.mem_map.mpr ⟨c, hc, rfl⟩)

section Pair
variable {k n : ℕ} {p p' : Plateau} (hp : p.Orderly) (hn : n = p.rovers.length + 1)
  {a b : List Char × List Char} {rest : List (List Char × List Char)}
  {r s : Rover} {cs ds : List Command}
  (hr : readRover (k + 1) n a.1 = .ok r) (hcs : readCommands (k + 2) n a.2 = .ok cs)
  (hclear : p.Clear (r.trail cs))
  (hs : readRover (k + 3) (n + 1) b.1 = .ok s) (hds : readCommands (k + 4) (n + 1) b.2 = .ok ds)
  (hclear' : (p.register (r.walk cs)).Clear (s.trail ds))
include hp hn hr hcs hclear hs hds hclear'

/-- Where two rovers never stand on the same cell, their trails have no cell in common. -/
theorem trails_apart (hd : ∀ c ∈ cellsAt n (momentsFrom k n p (a :: b :: rest)),
      c ∉ cellsAt (n + 1) (momentsFrom k n p (a :: b :: rest))) :
    ∀ c ∈ r.trail cs, c ∉ s.trail ds := by
  intro c hc hc'
  obtain ⟨hp₁, -, hn₁⟩ := register_next hp hn hr hclear
  have hfirst := (mem_cellsAt_iff hp hn hr hcs hclear (b :: rest) c).mpr hc
  have hsecond := (mem_cellsAt_iff hp₁ hn₁ hs hds hclear' rest c).mpr hc'
  refine hd c hfirst (cellsAt_subset (fun m hm => ?_) hsecond)
  exact mem_momentsFrom_cons hp hn hr hcs hclear hm

/-- Two rovers on trails without a common cell are placed and driven in the other order, and the
rovers after them do as before. -/
theorem runRovers_exchange_first (hapart : ∀ c ∈ r.trail cs, c ∉ s.trail ds)
    (hrun : (runRovers (k + 4) (n + 2) ((p.register (r.walk cs)).register (s.walk ds)) rest).result
      = .ok p') :
    ∃ q rs, (runRovers k n p (b :: a :: rest)).result = .ok q ∧ p'.Alike q ∧
      p'.rovers = p.rovers ++ r.walk cs :: s.walk ds :: rs ∧
      q.rovers = p.rovers ++ (s.walk ds).withId (toString n) ::
        (r.walk cs).withId (toString (n + 1)) :: rs := by
  obtain ⟨hp₁, hput₁, hn₁⟩ := register_next hp hn hr hclear
  obtain ⟨hp₂, hput₂, hn₂⟩ := register_next hp₁ hn₁ hs hclear'
  -- the second rover goes first
  have hs' : readRover (k + 1) n b.1 = .ok (s.withId (toString n)) := readRover_withId hs _
  have hds' := readCommands_renumber hds (k + 2) n
  have hfirst : p.Clear ((s.withId (toString n)).trail ds) := by
    rw [Rover.withId_trail]
    exact ((clear_register hput₁ _).mp hclear').1
  obtain ⟨hq₁, hput₁', hn₁'⟩ := register_next hp hn hs' hfirst
  rw [Rover.withId_walk] at hq₁ hput₁' hn₁'
  -- the first one keeps clear of where it has gone
  have hr' : readRover (k + 3) (n + 1) a.1 = .ok (r.withId (toString (n + 1))) :=
    readRover_withId hr _
  have hcs' := readCommands_renumber hcs (k + 4) (n + 1)
  have hsecond : (p.register ((s.walk ds).withId (toString n))).Clear
      ((r.withId (toString (n + 1))).trail cs) := by
    rw [Rover.withId_trail, clear_register hput₁']
    exact ⟨hclear, fun hc => hapart _ hc (Rover.walk_cell_mem_trail ds s)⟩
  obtain ⟨hq₂, hput₂', -⟩ := register_next hq₁ hn₁' hr' hsecond
  rw [Rover.withId_walk] at hq₂ hput₂'
  -- the rovers after them find the same cells taken
  have hcells : ((p.register (r.walk cs)).register (s.walk ds)).Alike
      ((p.register ((s.walk ds).withId (toString n))).register
        ((r.walk cs).withId (toString (n + 1)))) := by
    refine ⟨rfl, ?_⟩
    rw [hput₂, hput₁, hput₂', hput₁']
    simp only [List.map_append, List.append_assoc]
    exact (List.Perm.swap _ _ []).append_left _
  obtain ⟨q, rs, hrun', hp', hq, halike⟩ := runRovers_alike hp₂ hq₂ hcells hn₂ hrun
  refine ⟨q, rs, ?_, halike, by rw [hp', hput₂, hput₁]; simp, by rw [hq, hput₂', hput₁']; simp⟩
  refine (runRovers_cons_iff_clear hp hn).mpr ⟨_, ds, hs', hds', hfirst, ?_⟩
  rw [Rover.withId_walk]
  refine (runRovers_cons_iff_clear hq₁ hn₁').mpr ⟨_, cs, hr', hcs', hsecond, ?_⟩
  rw [Rover.withId_walk]
  exact hrun'

end Pair

/-- A run goes through with two neighbours exchanged that have no cell in common. -/
theorem runRovers_exchange {k n : ℕ} {p p' : Plateau} (hp : p.Orderly)
    (hn : n = p.rovers.length + 1) {ps : List (List Char × List Char)} {i : ℕ}
    (hi : i + 1 < ps.length) (hrun : (runRovers k n p ps).result = .ok p')
    (hd : ∀ c ∈ cellsAt (n + i) (momentsFrom k n p ps),
      c ∉ cellsAt (n + i + 1) (momentsFrom k n p ps)) :
    ∃ q rs rs', (runRovers k n p (exchange i ps)).result = .ok q ∧ q.bounds = p'.bounds ∧
      p'.rovers = p.rovers ++ rs ∧ q.rovers = p.rovers ++ rs' ∧
      rs'.map Rover.pose = exchange i (rs.map Rover.pose) := by
  induction i generalizing k n p ps with
  | zero =>
    obtain _ | ⟨a, _ | ⟨b, rest⟩⟩ := ps
    · simp at hi
    · simp at hi
    · obtain ⟨r, cs, hr, hcs, hclear, hrun⟩ := (runRovers_cons_iff_clear hp hn).mp hrun
      obtain ⟨hp₁, -, hn₁⟩ := register_next hp hn hr hclear
      obtain ⟨s, ds, hs, hds, hclear', hrun⟩ := (runRovers_cons_iff_clear hp₁ hn₁).mp hrun
      have hapart := trails_apart hp hn hr hcs hclear hs hds hclear' hd
      obtain ⟨q, rs, hrun', halike, hp', hq⟩ :=
        runRovers_exchange_first hp hn hr hcs hclear hs hds hclear' hapart hrun
      refine ⟨q, _, _, hrun', halike.bounds.symm, hp', hq, ?_⟩
      simp [exchange]
  | succ i ih =>
    obtain _ | ⟨a, rest⟩ := ps
    · simp at hi
    · obtain ⟨r, cs, hr, hcs, hclear, hrun⟩ := (runRovers_cons_iff_clear hp hn).mp hrun
      obtain ⟨hp₁, hput, hn₁⟩ := register_next hp hn hr hclear
      have hmem : ∀ m ∈ momentsFrom (k + 2) (n + 1) (p.register (r.walk cs)) rest,
          m ∈ momentsFrom k n p (a :: rest) :=
        fun m hm => mem_momentsFrom_cons hp hn hr hcs hclear hm
      have hshift : n + 1 + i = n + (i + 1) := by ring
      have hd' : ∀ c ∈ cellsAt (n + 1 + i)
            (momentsFrom (k + 2) (n + 1) (p.register (r.walk cs)) rest),
          c ∉ cellsAt (n + 1 + i + 1)
            (momentsFrom (k + 2) (n + 1) (p.register (r.walk cs)) rest) := by
        rw [hshift]
        exact fun c hc hc' => hd c (cellsAt_subset hmem hc) (cellsAt_subset hmem hc')
      obtain ⟨q, rs, rs', hrun', hbounds, hp', hq, hposes⟩ :=
        ih hp₁ hn₁ (Nat.succ_lt_succ_iff.mp hi) hrun hd'
      refine ⟨q, r.walk cs :: rs, r.walk cs :: rs', ?_, hbounds, by simp [hp', hput],
        by simp [hq, hput], by simp [exchange, hposes]⟩
      exact (runRovers_cons_iff_clear hp hn).mpr ⟨r, cs, hr, hcs, hclear, hrun'⟩

def blankLine (l : List Char) : Bool := (trim isBlank l).isEmpty

/-- The text in which the two lines of rover `i + 1` and the two lines of rover `i + 2` are
exchanged. The first line that is not blank is the plateau line. -/
def exchangeLines (i : ℕ) (text : List Char) : List Char :=
  match (Text.lines text).dropWhile blankLine with
  | [] => text
  | first :: rest => joined ((Text.lines text).takeWhile blankLine ++ first :: exchangePairs i rest)

/-- The lines of a text are blank ones, one whose trimmed form is the first line of the script, and
the other lines of the script with blank ones behind them. -/
theorem exists_split {text first : List Char} {rest : List (List Char)}
    (h : lines text = first :: rest) (hne : first ≠ []) :
    ∃ m n pad f body, (Text.lines text).takeWhile blankLine = pad ∧
      (Text.lines text).dropWhile blankLine = f :: body ∧
      pad.map (trim isBlank) = List.replicate m [] ∧ trim isBlank f = first ∧
      body.map (trim isBlank) = rest ++ List.replicate n [] := by
  obtain ⟨m, n, hpadded⟩ := trimmedLines_lines text
  rw [h, List.append_assoc, List.cons_append] at hpadded
  obtain ⟨pad, tail, hsplit, hpad, htail⟩ := List.map_eq_append_iff.mp hpadded
  obtain ⟨f, body, rfl, hf, hbody⟩ := List.map_eq_cons_iff.mp htail
  have hblank : ∀ l ∈ pad, blankLine l = true := by
    intro l hl
    have hmem : trim isBlank l ∈ List.replicate m [] := hpad ▸ List.mem_map_of_mem hl
    exact List.isEmpty_iff.mpr (List.eq_of_mem_replicate hmem)
  have hsolid : ¬ blankLine f = true := by
    rw [blankLine, hf, List.isEmpty_iff]
    exact hne
  refine ⟨m, n, pad, f, body, ?_, ?_, hpad, hf, hbody⟩
  · rw [hsplit, List.takeWhile_append_of_pos hblank, List.takeWhile_cons_of_neg hsolid,
      List.append_nil]
  · rw [hsplit, List.dropWhile_append_of_pos hblank, List.dropWhile_cons_of_neg hsolid]

/-- In a text whose lines are not empty the exchange is one of the lines of the script. -/
theorem lines_exchangeLines {i : ℕ} {text first : List Char} {rest : List (List Char)}
    (hlines : lines text = first :: rest) (hne : ∀ l ∈ lines text, l ≠ [])
    (hi : 2 * i + 4 ≤ rest.length) :
    lines (exchangeLines i text) = first :: exchangePairs i rest := by
  rw [hlines, List.forall_mem_cons] at hne
  obtain ⟨m, n, pad, f, body, htake, hdrop, hpad, hf, hbody⟩ := exists_split hlines hne.1
  have hsplit : pad ++ f :: body = Text.lines text := by
    rw [← htake, ← hdrop, List.takeWhile_append_dropWhile]
  have hfeed : ∀ l ∈ pad ++ f :: exchangePairs i body, '\n' ∉ l := by
    intro l hl
    have hperm : (pad ++ f :: exchangePairs i body).Perm (Text.lines text) := by
      rw [← hsplit]
      exact ((exchangePairs_perm i body).cons f).append_left pad
    exact feed_notMem_of_mem_lines (hperm.mem_iff.mp hl)
  have hexchanged : (f :: exchangePairs i body).map (trim isBlank) =
      first :: exchangePairs i rest ++ List.replicate n [] := by
    rw [List.map_cons, map_exchangePairs, hf, hbody, exchangePairs_append hi, List.cons_append]
  simp only [exchangeLines, hdrop, htake]
  refine lines_joined_of_padded (List.cons_ne_nil _ _) (List.forall_mem_cons.mpr ⟨hne.1, ?_⟩)
    hfeed hpad hexchanged
  exact fun l hl => hne.2 l ((exchangePairs_perm i rest).mem_iff.mp hl)

/-- Two rovers whose trails have no cell in common commute: when the lines of one and of the next
are exchanged in a script that succeeds, it succeeds, with the two poses exchanged and all others
as they were. -/
theorem run_exchange {text : List Char} {p : Plateau} (h : (run text).result = .ok p) {i : ℕ}
    (hi : i + 1 < p.rovers.length) (hd : ∀ c ∈ trail text (i + 1), c ∉ trail text (i + 2)) :
    ∃ q, (run (exchangeLines i text)).result = .ok q ∧ q.bounds = p.bounds ∧
      q.rovers.map Rover.pose = exchange i (p.rovers.map Rover.pose) := by
  obtain ⟨first, rest, start, hlines, hstart, hrun⟩ := run_ok_iff.mp h
  obtain ⟨ho, hempty⟩ := start_orderly hstart
  obtain ⟨hpairs, hlen⟩ := rovers_length hstart hrun
  have hlines' : lines (exchangeLines i text) = first :: exchangePairs i rest :=
    lines_exchangeLines hlines (passed_lines h).ne_nil (by omega)
  have hmem : ∀ m ∈ momentsFrom 1 1 start (pairs rest), m ∈ moments text := by
    intro m hm
    simp only [moments, hlines, hstart]
    exact List.mem_cons_of_mem _ hm
  have hd' : ∀ c ∈ cellsAt (1 + i) (momentsFrom 1 1 start (pairs rest)),
      c ∉ cellsAt (1 + i + 1) (momentsFrom 1 1 start (pairs rest)) := by
    rw [Nat.add_comm 1 i]
    exact fun c hc hc' => hd c (cellsAt_subset hmem hc) (cellsAt_subset hmem hc')
  obtain ⟨q, rs, rs', hrun', hbounds, hp, hq, hposes⟩ :=
    runRovers_exchange ho (by simp [hempty]) (hpairs ▸ hi) hrun hd'
  rw [hempty, List.nil_append] at hp hq
  refine ⟨q, ?_, hbounds, by rw [hp, hq, hposes]⟩
  rw [← pairs_exchangePairs (by omega)] at hrun'
  exact run_ok_iff.mpr ⟨first, _, start, hlines', hstart, hrun'⟩

/-- The second and the third rover go in the other order. -/
theorem run_exchange_three_rovers :
    let text := "5 5\n0 0 E\nM\n1 2 N\nLMLMLMLMM\n3 3 E\nMMRMMRMRRM".toList
    let exchanged := "5 5\n0 0 E\nM\n3 3 E\nMMRMMRMRRM\n1 2 N\nLMLMLMLMM".toList
    (∀ c ∈ trail text 2, c ∉ trail text 3) ∧ exchangeLines 1 text = exchanged ∧
      ∃ q, (run exchanged).result = .ok q ∧
        q.rovers.map Rover.pose = [(⟨1, 0⟩, .east), (⟨5, 1⟩, .east), (⟨1, 3⟩, .north)] := by
  intro text exchanged
  have h : (run text).result = .ok
      ⟨"1", ⟨5, 5⟩, [⟨"1", ⟨1, 0⟩, .east⟩, ⟨"2", ⟨1, 3⟩, .north⟩, ⟨"3", ⟨5, 1⟩, .east⟩]⟩ := by rfl
  have hd : ∀ c ∈ trail text 2, c ∉ trail text 3 := by decide +kernel
  have hlines : exchangeLines 1 text = exchanged := by decide +kernel
  obtain ⟨q, hq, -, hposes⟩ := run_exchange h (i := 1) (by decide) hd
  exact ⟨hd, hlines, q, hlines ▸ hq, hposes⟩

end Script

end RoverFleet
