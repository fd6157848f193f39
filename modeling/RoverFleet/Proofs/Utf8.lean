import RoverFleet.Codec.Utf8
import RoverFleet.Proofs.Outcome

/-!
# UTF-8 is read as it is written

The decoder accepts exactly the bytes that some text is encoded as, and gives that text. What holds
inside a sequence is that it can still end as any code point of an interval, and that the bytes
taken are the first ones of each of these.
-/
namespace RoverFleet.Codec.Utf8
variable {b : UInt8} {bytes rest : List UInt8} {n position : ℕ} {p : Pending} {s t : List Char}

theorem toNat_ofNat {n : ℕ} (h : n < 256) : (UInt8.ofNat n).toNat = n :=
  UInt8.toNat_ofNat_of_lt h

theorem tail_toNat (n : ℕ) : (tail n).toNat = 0x80 + n % 64 := toNat_ofNat (by omega)

theorem tail_of_mod {n : ℕ} (h : n % 64 + 0x80 = b.toNat) : tail n = b := by
  rw [tail, Nat.add_comm, h, UInt8.ofNat_toNat]

/-- The last bytes of the encoding of a code point. -/
def tails (n : ℕ) : ℕ → List UInt8
  | 0 => []
  | k + 1 => tail (n / 64 ^ k) :: tails n k

theorem tails_length (n k : ℕ) : (tails n k).length = k := by
  induction k with
  | zero => rfl
  | succ k ih => rw [tails, List.length_cons, ih]

/-- Whether a sequence can still end as the code point. -/
def Pending.Reaches (p : Pending) (n : ℕ) : Prop :=
  p.code * 64 + p.low ≤ n / 64 ^ (p.owed - 1) + 0x80 ∧
    n / 64 ^ (p.owed - 1) + 0x80 ≤ p.code * 64 + p.high

/-- Whether each code point that a sequence can end as is encoded with the bytes taken. -/
structure Pending.Sound (p : Pending) : Prop where
  owed : 0 < p.owed
  low : 0x80 ≤ p.low
  high : p.high ≤ 0xbf
  spelled : ∀ n, p.Reaches n → n.isValidChar ∧
    encodeChar (Char.ofNat n) = p.taken.reverse ++ tails n p.owed

/-- The sequence after one more byte. -/
def Pending.next (p : Pending) (b : UInt8) : Pending :=
  ⟨b :: p.taken, p.owed - 1, 0x80, 0xbf, p.code * 64 + (b.toNat - 0x80)⟩

/-- The code points that a sequence can end as after one more byte have that byte in its place. -/
theorem Pending.Sound.reaches_next_iff (hp : p.Sound) (howed : 1 < p.owed)
    (hlow : p.low ≤ b.toNat) (hhigh : b.toNat ≤ p.high) :
    (p.next b).Reaches n ↔ p.Reaches n ∧ tail (n / 64 ^ (p.owed - 1)) = b := by
  obtain ⟨k, hk⟩ : ∃ k, p.owed = k + 2 := ⟨p.owed - 2, by omega⟩
  have hlow' := hp.low
  have hhigh' := hp.high
  have htail (m : ℕ) : tail m = b ↔ 0x80 + m % 64 = b.toNat := by
    rw [← UInt8.toNat_inj, tail_toNat]
  simp only [Reaches, next, hk, htail]
  rw [show k + 2 - 1 - 1 = k from rfl, show k + 2 - 1 = k + 1 from rfl, pow_succ,
    ← Nat.div_div_eq_div_mul]
  generalize n / 64 ^ k = m
  omega

theorem Pending.Sound.next (hp : p.Sound) (howed : 1 < p.owed) (hlow : p.low ≤ b.toNat)
    (hhigh : b.toNat ≤ p.high) : (p.next b).Sound where
  owed := Nat.sub_pos_of_lt howed
  low := le_rfl
  high := le_rfl
  spelled n h := by
    obtain ⟨hreach, hb⟩ := (hp.reaches_next_iff howed hlow hhigh).mp h
    obtain ⟨hvalid, hspelled⟩ := hp.spelled n hreach
    refine ⟨hvalid, ?_⟩
    have htails : tails n p.owed = b :: tails n (p.owed - 1) := by
      obtain ⟨k, hk⟩ : ∃ k, p.owed = k + 1 := ⟨p.owed - 1, by omega⟩
      rw [← hb, hk]
      rfl
    simpa [Pending.next, htails] using hspelled

theorem Pending.Sound.last (hp : p.Sound) (howed : p.owed = 1) (hlow : p.low ≤ b.toNat)
    (hhigh : b.toNat ≤ p.high) :
    encodeChar (Char.ofNat (p.code * 64 + (b.toNat - 0x80))) = p.taken.reverse ++ [b] := by
  have hlow' := hp.low
  have hhigh' := hp.high
  have hreach : p.Reaches (p.code * 64 + (b.toNat - 0x80)) := by
    simp only [Reaches, howed, Nat.sub_self, pow_zero, Nat.div_one]
    omega
  rw [(hp.spelled _ hreach).2, howed]
  simp only [tails, pow_zero, Nat.div_one]
  rw [@tail_of_mod b _ (by omega)]

theorem encodeChar_two (h : 0x80 ≤ n) (h' : n < 0x800) :
    n.isValidChar ∧
      encodeChar (Char.ofNat n) = UInt8.ofNat (0xc0 + n / 64) :: tails n 1 := by
  have hvalid : n.isValidChar := by
    unfold Nat.isValidChar
    omega
  refine ⟨hvalid, ?_⟩
  unfold encodeChar
  rw [Char.toNat_ofNat, if_pos hvalid]
  dsimp only
  rw [if_neg (by omega), if_pos h']
  simp [tails]

theorem encodeChar_three (h : 0x800 ≤ n) (h' : n < 0x10000) (hvalid : n.isValidChar) :
    encodeChar (Char.ofNat n) = UInt8.ofNat (0xe0 + n / 4096) :: tails n 2 := by
  unfold encodeChar
  rw [Char.toNat_ofNat, if_pos hvalid]
  dsimp only
  rw [if_neg (by omega), if_neg (by omega), if_pos h']
  simp [tails]

theorem encodeChar_four (h : 0x10000 ≤ n) (h' : n < 0x110000) :
    n.isValidChar ∧
      encodeChar (Char.ofNat n) = UInt8.ofNat (0xf0 + n / 262144) :: tails n 3 := by
  have hvalid : n.isValidChar := by
    unfold Nat.isValidChar
    omega
  refine ⟨hvalid, ?_⟩
  unfold encodeChar
  rw [Char.toNat_ofNat, if_pos hvalid]
  dsimp only
  rw [if_neg (by omega), if_neg (by omega), if_neg (by omega)]
  simp [tails]

section Begin
variable {low high code : ℕ}

theorem ofNat_eq {n : ℕ} (h : b.toNat = n) : UInt8.ofNat n = b := by rw [← h, UInt8.ofNat_toNat]

theorem sound_two (hb : b.toNat = 0xc0 + code) (hcode : 2 ≤ code) (hcode' : code < 0x20) :
    Pending.Sound ⟨[b], 1, 0x80, 0xbf, code⟩ where
  owed := Nat.one_pos
  low := le_rfl
  high := le_rfl
  spelled n h := by
    simp only [Pending.Reaches, Nat.sub_self, pow_zero, Nat.div_one] at h
    obtain ⟨hvalid, hspelled⟩ := @encodeChar_two n (by omega) (by omega)
    refine ⟨hvalid, ?_⟩
    rw [hspelled, @ofNat_eq b _ (by omega)]
    rfl

theorem sound_three (hb : b.toNat = 0xe0 + code) (hcode : code < 0x10) (hlow : 0x80 ≤ low)
    (hhigh : high ≤ 0xbf) (hfirst : code = 0 → 0xa0 ≤ low) (hsurrogate : code = 0xd → high ≤ 0x9f) :
    Pending.Sound ⟨[b], 2, low, high, code⟩ where
  owed := Nat.two_pos
  low := hlow
  high := hhigh
  spelled n h := by
    simp only [Pending.Reaches, Nat.reduceSub, pow_one] at h
    have hvalid : n.isValidChar := by
      unfold Nat.isValidChar
      omega
    refine ⟨hvalid, ?_⟩
    rw [encodeChar_three (by omega) (by omega) hvalid, @ofNat_eq b _ (by omega)]
    rfl

theorem sound_four (hb : b.toNat = 0xf0 + code) (hcode : code ≤ 4) (hlow : 0x80 ≤ low)
    (hhigh : high ≤ 0xbf) (hfirst : code = 0 → 0x90 ≤ low) (hlast : code = 4 → high ≤ 0x8f) :
    Pending.Sound ⟨[b], 3, low, high, code⟩ where
  owed := Nat.succ_pos 2
  low := hlow
  high := hhigh
  spelled n h := by
    simp only [Pending.Reaches, Nat.reduceSub, Nat.reducePow] at h
    obtain ⟨hvalid, hspelled⟩ := @encodeChar_four n (by omega) (by omega)
    refine ⟨hvalid, ?_⟩
    rw [hspelled, @ofNat_eq b _ (by omega)]
    rfl

/-- A sequence that begins is sound. -/
theorem begin?_sound (h : begin? b = some p) : p.Sound ∧ p.taken = [b] := by
  unfold begin? at h
  dsimp only at h
  split_ifs at h
  · cases h
    exact ⟨sound_two (by omega) (by omega) (by omega), rfl⟩
  · cases h
    exact ⟨sound_three (by omega) (by omega) (by omega) (by omega) (by omega) (by omega), rfl⟩
  · cases h
    exact ⟨sound_three (by omega) (by omega) (by omega) (by omega) (by omega) (by omega), rfl⟩
  · cases h
    exact ⟨sound_three (by omega) (by omega) (by omega) (by omega) (by omega) (by omega), rfl⟩
  · cases h
    exact ⟨sound_four (by omega) (by omega) (by omega) (by omega) (by omega) (by omega), rfl⟩
  · cases h
    exact ⟨sound_four (by omega) (by omega) (by omega) (by omega) (by omega) (by omega), rfl⟩
  · cases h
    exact ⟨sound_four (by omega) (by omega) (by omega) (by omega) (by omega) (by omega), rfl⟩

/-- What the first byte of three promises, by the four bits that it holds. -/
theorem begin?_three (hb : b.toNat = 0xe0 + code) (hcode : code < 0x10) :
    begin? b = some ⟨[b], 2, if code = 0 then 0xa0 else 0x80, if code = 0xd then 0x9f else 0xbf,
      code⟩ := by
  unfold begin?
  dsimp only
  rw [if_neg (by omega), hb, Nat.add_sub_cancel_left]
  rcases eq_or_ne code 0 with rfl | hfirst
  · rfl
  rcases eq_or_ne code 0xd with rfl | hsurrogate
  · rfl
  rw [if_neg (by omega), if_neg (by omega), if_pos (by omega), if_neg hfirst, if_neg hsurrogate]

/-- What the first byte of four promises, by the three bits that it holds. -/
theorem begin?_four (hb : b.toNat = 0xf0 + code) (hcode : code ≤ 4) :
    begin? b = some ⟨[b], 3, if code = 0 then 0x90 else 0x80, if code = 4 then 0x8f else 0xbf,
      code⟩ := by
  unfold begin?
  dsimp only
  rw [hb, Nat.add_sub_cancel_left]
  interval_cases code <;> rfl

/-- Each code point beyond ASCII is what some first byte can still end as. -/
theorem exists_begin? (hn : n.isValidChar) (h : 0x80 ≤ n) :
    ∃ b p, begin? b = some p ∧ 0x80 ≤ b.toNat ∧ p.Reaches n := by
  unfold Nat.isValidChar at hn
  unfold Pending.Reaches
  rcases Nat.lt_or_ge n 0x800 with htwo | htwo
  · have hb : (UInt8.ofNat (0xc0 + n / 64)).toNat = 0xc0 + n / 64 := toNat_ofNat (by omega)
    have hbegin : begin? (.ofNat (0xc0 + n / 64)) =
        some ⟨[.ofNat (0xc0 + n / 64)], 1, 0x80, 0xbf, n / 64⟩ := by
      unfold begin?
      dsimp only
      rw [if_pos (by omega), hb, Nat.add_sub_cancel_left]
    refine ⟨_, _, hbegin, by omega, ?_⟩
    simp only [Nat.sub_self, pow_zero, Nat.div_one]
    omega
  rcases Nat.lt_or_ge n 0x10000 with hthree | hthree
  · have hb : (UInt8.ofNat (0xe0 + n / 4096)).toNat = 0xe0 + n / 4096 := toNat_ofNat (by omega)
    refine ⟨_, _, begin?_three hb (by omega), by omega, ?_⟩
    simp only [Nat.reduceSub, pow_one]
    split_ifs <;> omega
  · have hb : (UInt8.ofNat (0xf0 + n / 262144)).toNat = 0xf0 + n / 262144 := toNat_ofNat (by omega)
    refine ⟨_, _, begin?_four hb (by omega), by omega, ?_⟩
    simp only [Nat.reduceSub, Nat.reducePow]
    split_ifs <;> omega

end Begin

section Decode

theorem do_cons {ε : Type} (c : Char) (e : Except ε (List Char)) :
    (do return c :: (← e)) = e.map (c :: ·) := by
  cases e <;> rfl

theorem decodeFrom_ascii (hb : b.toNat < 0x80) :
    decodeFrom position none (b :: rest) =
      (decodeFrom (position + 1) none rest).map (Char.ofNat b.toNat :: ·) := by
  rw [decodeFrom, if_pos hb, do_cons]

theorem decodeFrom_begin (hb : 0x80 ≤ b.toNat) (h : begin? b = some p) :
    decodeFrom position none (b :: rest) = decodeFrom (position + 1) (some p) rest := by
  rw [decodeFrom, if_neg (Nat.not_lt.mpr hb), h]

theorem decodeFrom_last (howed : p.owed = 1) (hlow : p.low ≤ b.toNat) (hhigh : b.toNat ≤ p.high) :
    decodeFrom position (some p) (b :: rest) = (decodeFrom (position + 1) none rest).map
      (Char.ofNat (p.code * 64 + (b.toNat - 0x80)) :: ·) := by
  rw [decodeFrom, if_pos ⟨hlow, hhigh⟩]
  dsimp only
  rw [if_pos howed.le, do_cons]

theorem decodeFrom_next (howed : 1 < p.owed) (hlow : p.low ≤ b.toNat) (hhigh : b.toNat ≤ p.high) :
    decodeFrom position (some p) (b :: rest) =
      decodeFrom (position + 1) (some (p.next b)) rest := by
  rw [decodeFrom, if_pos ⟨hlow, hhigh⟩]
  exact if_neg (Nat.not_le.mpr howed)

theorem Pending.Sound.tail_range (hp : p.Sound) (h : p.Reaches n) :
    p.low ≤ (tail (n / 64 ^ (p.owed - 1))).toNat ∧
      (tail (n / 64 ^ (p.owed - 1))).toNat ≤ p.high := by
  have hlow := hp.low
  have hhigh := hp.high
  obtain ⟨hn, hn'⟩ := h
  rw [tail_toNat]
  omega

/-- From inside a sequence to the end of a code point that it can end as. -/
theorem decodeFrom_tails (hp : p.Sound) (h : p.Reaches n) (rest : List UInt8) :
    decodeFrom position (some p) (tails n p.owed ++ rest) =
      (decodeFrom (position + p.owed) none rest).map (Char.ofNat n :: ·) := by
  induction hk : p.owed - 1 generalizing position p with
  | zero =>
    have howed : p.owed = 1 := Nat.le_antisymm (Nat.sub_eq_zero_iff_le.mp hk) hp.owed
    obtain ⟨hlow, hhigh⟩ := hp.tail_range h
    have hcode : p.code * 64 + ((tail (n / 64 ^ (p.owed - 1))).toNat - 0x80) = n := by
      have hlow' := hp.low
      have hhigh' := hp.high
      obtain ⟨hn, hn'⟩ := h
      rw [tail_toNat]
      rw [hk, pow_zero, Nat.div_one] at hn hn' ⊢
      omega
    have htails : tails n 1 = [tail (n / 64 ^ (p.owed - 1))] := by rw [hk]; rfl
    rw [howed, htails, List.singleton_append, decodeFrom_last howed hlow hhigh, hcode]
  | succ k ih =>
    have howed : p.owed = k + 2 := by omega
    obtain ⟨hlow, hhigh⟩ := hp.tail_range h
    have hone : 1 < p.owed := by omega
    have hnext := (hp.reaches_next_iff hone hlow hhigh).mpr ⟨h, rfl⟩
    have hleft : (p.next (tail (n / 64 ^ (p.owed - 1)))).owed - 1 = k := by
      simp only [Pending.next]
      omega
    have hrest := @ih (position + 1) _ (hp.next hone hlow hhigh) hnext hleft
    rw [howed, tails, List.cons_append, ← hk, decodeFrom_next hone hlow hhigh]
    simp only [Pending.next, howed] at hrest ⊢
    rw [hrest, show position + 1 + (k + 2 - 1) = position + (k + 2) by omega]

theorem decodeFrom_encodeChar (c : Char) (rest : List UInt8) :
    decodeFrom position none (encodeChar c ++ rest) =
      (decodeFrom (position + (encodeChar c).length) none rest).map (c :: ·) := by
  rcases Nat.lt_or_ge c.toNat 0x80 with hlow | hhigh
  · have hone : encodeChar c = [.ofNat c.toNat] := if_pos hlow
    rw [hone, List.singleton_append, decodeFrom_ascii (by rw [toNat_ofNat (by omega)]; exact hlow),
      toNat_ofNat (by omega), Char.ofNat_toNat]
    rfl
  · have hvalid : c.toNat.isValidChar := c.valid
    obtain ⟨b, p, hbegin, hb, hreach⟩ := exists_begin? hvalid hhigh
    obtain ⟨hsound, htaken⟩ := begin?_sound hbegin
    have hspelled := (hsound.spelled _ hreach).2
    rw [Char.ofNat_toNat, htaken] at hspelled
    rw [hspelled, List.reverse_singleton, List.append_assoc, List.singleton_append,
      decodeFrom_begin hb hbegin, decodeFrom_tails hsound hreach, Char.ofNat_toNat,
      List.length_append, tails_length, List.length_singleton, Nat.add_assoc]

/-- A text is read as it is written. -/
theorem decodeFrom_encode (s : List Char) : decodeFrom position none (encode s) = .ok s := by
  induction s generalizing position with
  | nil => rfl
  | cons c s ih =>
    rw [encode, List.flatMap_cons, decodeFrom_encodeChar]
    change (decodeFrom _ none (encode s)).map _ = _
    rw [ih]
    rfl

/-- What is read is the encoding of the text that is given; inside a sequence, with the bytes taken
in front. -/
theorem encode_of_decodeFrom {o : Option Pending} (hsound : ∀ p ∈ o, p.Sound)
    (h : decodeFrom position o bytes = .ok s) :
    (o.elim [] fun p => p.taken.reverse) ++ bytes = encode s := by
  -- One case per branch of the decoder; a sequence that goes on stays sound.
  fun_induction decodeFrom position o bytes generalizing s with
  | case1 =>
    cases h
    rfl
  | case2 => cases h
  | case3 position b rest hb ih =>
    obtain ⟨t, ht, hs⟩ := bind_ok_iff.mp h
    cases hs
    have hone : encodeChar (Char.ofNat b.toNat) = [b] := by
      have hcode : (Char.ofNat b.toNat).toNat = b.toNat := by
        rw [Char.toNat_ofNat, if_pos (Or.inl (by omega))]
      rw [encodeChar, hcode, if_pos hb, UInt8.ofNat_toNat]
    have hrest : rest = encode t := ih (by simp) ht
    rw [encode, List.flatMap_cons, hone, ← encode, ← hrest]
    rfl
  | case4 position b rest hb p hp ih =>
    obtain ⟨hp, htaken⟩ := begin?_sound hp
    have hrest := ih (by simpa using hp) h
    rwa [Option.elim_some, htaken] at hrest
  | case5 => cases h
  | case6 position p b rest hb code howed =>
    rename_i ih
    have hp : p.Sound := hsound p rfl
    obtain ⟨t, ht, hs⟩ := bind_ok_iff.mp h
    cases hs
    have hrest : rest = encode t := ih (by simp) ht
    have hlast := hp.last (Nat.le_antisymm howed hp.owed) hb.1 hb.2
    rw [encode, List.flatMap_cons, hlast, ← encode, ← hrest, Option.elim_some]
    simp
  | case7 position p b rest hb code howed =>
    rename_i ih
    have hp : p.Sound := hsound p rfl
    have hnext := hp.next (Nat.not_le.mp howed) hb.1 hb.2
    have hrest := ih (fun q hq => Option.mem_some.mp hq ▸ hnext) h
    simpa using hrest
  | case8 => cases h

/-- The bytes that are read are exactly the encodings of texts. -/
theorem decode_ok_iff : decode bytes = .ok s ↔ bytes = encode s := by
  constructor
  · intro h
    exact encode_of_decodeFrom (by simp) h
  · rintro rfl
    exact decodeFrom_encode s

end Decode

/-- The encoding is the one that strings are stored in. -/
theorem encodeChar_eq (c : Char) : encodeChar c = String.utf8EncodeChar c := by
  have hvalid : c.toNat.isValidChar := c.valid
  unfold Nat.isValidChar at hvalid
  simp only [encodeChar, String.utf8EncodeChar, Char.toNat_val, tail]
  generalize c.toNat = n at *
  simp only [Nat.add_comm 0x80, Nat.add_comm 0xc0, Nat.add_comm 0xe0, Nat.add_comm 0xf0]
  rcases Nat.lt_or_ge n 0x80 with hone | hone
  · rw [if_pos hone, if_pos (by omega)]
  rcases Nat.lt_or_ge n 0x800 with htwo | htwo
  · rw [if_neg (by omega), if_pos htwo, if_neg (by omega), if_pos (by omega),
      Nat.mod_eq_of_lt (show n / 64 < 32 by omega)]
  rcases Nat.lt_or_ge n 0x10000 with hthree | hthree
  · rw [if_neg (by omega), if_neg (by omega), if_pos hthree, if_neg (by omega), if_neg (by omega),
      if_pos (by omega), Nat.mod_eq_of_lt (show n / 4096 < 16 by omega)]
  · rw [if_neg (by omega), if_neg (by omega), if_neg (by omega), if_neg (by omega),
      if_neg (by omega), if_neg (by omega), Nat.mod_eq_of_lt (show n / 262144 < 8 by omega)]

section Mark

theorem mark_eq : mark = encodeChar '\ufeff' := by decide +kernel

theorem decode_mark (bytes : List UInt8) :
    decode (mark ++ bytes) = (decodeFrom 3 none bytes).map ('\ufeff' :: ·) := by
  rw [mark_eq]
  exact decodeFrom_encodeChar _ _

theorem decodeMarked_mark (s : List Char) : decodeMarked (mark ++ encode s) = .ok s := by
  have hlength : ¬ ((mark ++ encode s).length < 3 ∧ (mark ++ encode s).isPrefixOf mark) := by
    simp [mark]
  have hprefix : mark.isPrefixOf (mark ++ encode s) := by simp
  rw [decodeMarked, if_neg hlength, if_pos hprefix]
  exact decodeFrom_encode s

/-- Bytes that begin a mark without being one are no text, unless there are none. -/
theorem eq_nil_of_short (hlength : (encode s).length < 3) (h : encode s <+: mark) : s = [] := by
  have hs : decode (encode s) = .ok s := decodeFrom_encode s
  rw [List.prefix_iff_eq_take.mp h] at hs
  generalize (encode s).length = k at *
  interval_cases k
  · exact (Except.ok.inj hs).symm
  · cases hs
  · cases hs

theorem decodeMarked_unmarked (h : s.head? ≠ some '\ufeff') : decodeMarked (encode s) = .ok s := by
  unfold decodeMarked
  split_ifs with hshort hmark
  · rw [eq_nil_of_short hshort.1 (List.isPrefixOf_iff_prefix.mp hshort.2)]
  · obtain ⟨bytes, hbytes⟩ := List.isPrefixOf_iff_prefix.mp hmark
    have hs : decode (mark ++ bytes) = .ok s := hbytes ▸ decodeFrom_encode s
    rw [decode_mark] at hs
    cases ht : decodeFrom 3 none bytes with
    | error u => simp [ht, Except.map] at hs
    | ok t =>
      rw [ht] at hs
      obtain rfl := Except.ok.inj hs
      exact absurd rfl h
  · exact decodeFrom_encode s

end Mark

end RoverFleet.Codec.Utf8
