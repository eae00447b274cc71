import OptionsApi.Text.Utf8

/-! Decoding undoes encoding: the bytes of a text stand for that text and no other. -/

set_option autoImplicit false

namespace OptionsApi.Text

variable {offset : Nat} {held rest : Bytes} {byte : UInt8}

/-! One byte at a time. -/

theorem decodeFrom_single (ascii : byte.toNat < 0x80) :
    decodeFrom offset none [] (byte :: rest) =
      (decodeFrom (offset + 1) none [] rest).map (Char.ofNat byte.toNat :: ·) := by
  rw [decodeFrom, if_pos ascii]

theorem decodeFrom_lead {next : Pending} (long : ¬ byte.toNat < 0x80)
    (lead : Pending.ofLead? byte = some next) :
    decodeFrom offset none [] (byte :: rest) = decodeFrom (offset + 1) (some next) [byte] rest := by
  rw [decodeFrom, if_neg long, lead]

theorem decodeFrom_middle {state : Pending} (inside : state.low ≤ byte.toNat ∧ byte.toNat ≤ state.high)
    (more : ¬ state.missing ≤ 1) :
    decodeFrom offset (some state) held (byte :: rest) =
      decodeFrom (offset + 1)
        (some { bits := state.bits * 64 + byte.toNat % 64, missing := state.missing - 1 })
        (byte :: held) rest := by
  rw [decodeFrom, if_pos inside, if_neg more]

theorem decodeFrom_last {state : Pending} (inside : state.low ≤ byte.toNat ∧ byte.toNat ≤ state.high)
    (last : state.missing ≤ 1) :
    decodeFrom offset (some state) held (byte :: rest) =
      (decodeFrom (offset + 1) none [] rest).map
        (Char.ofNat (state.bits * 64 + byte.toNat % 64) :: ·) := by
  rw [decodeFrom, if_pos inside, if_pos last]

/-! The sequence of one character. -/

theorem toNat_ofNat_byte {n : Nat} (small : n < 256) : (UInt8.ofNat n).toNat = n := by
  rw [UInt8.toNat_ofNat', Nat.mod_eq_of_lt small]

theorem toNat_continuation (n : Nat) : (UInt8.ofNat (n % 64 + 128)).toNat = n % 64 + 128 :=
  toNat_ofNat_byte (by omega)

theorem decodeFrom_two {v : Nat} (low : 0x80 ≤ v) (high : v < 0x800) :
    decodeFrom offset none []
        (UInt8.ofNat (v / 64 % 32 + 192) :: UInt8.ofNat (v % 64 + 128) :: rest) =
      (decodeFrom (offset + 2) none [] rest).map (Char.ofNat v :: ·) := by
  have first : (UInt8.ofNat (v / 64 % 32 + 192)).toNat = v / 64 + 192 := by
    rw [toNat_ofNat_byte (by omega)]
    omega
  have lead : Pending.ofLead? (UInt8.ofNat (v / 64 % 32 + 192)) =
      some { bits := v / 64, missing := 1 } := by
    rw [Pending.ofLead?, first, if_pos (by omega), Nat.add_sub_cancel]
  have value : v / 64 * 64 + (v % 64 + 128) % 64 = v := by omega
  rw [decodeFrom_lead (by omega) lead,
    decodeFrom_last (by simp only [toNat_continuation]; omega) (Nat.le_refl 1)]
  simp only [toNat_continuation, value]

theorem ofLead?_three {v : Nat} (low : 0x800 ≤ v) (high : v < 0x10000)
    (scalar : v < 0xD800 ∨ 0xDFFF < v) :
    ∃ next, Pending.ofLead? (UInt8.ofNat (v / 4096 % 16 + 224)) = some next ∧
      next.bits = v / 4096 ∧ next.missing = 2 ∧
      next.low ≤ v / 64 % 64 + 128 ∧ v / 64 % 64 + 128 ≤ next.high := by
  -- The bounds keep out what fits into two bytes, and the surrogates.
  rw [Pending.ofLead?, toNat_ofNat_byte (by omega), if_neg (by omega)]
  split
  · exact ⟨_, rfl, by dsimp only; omega⟩
  split
  · exact ⟨_, rfl, by dsimp only; omega⟩
  · rw [if_pos (by omega)]
    exact ⟨_, rfl, by dsimp only; omega⟩

theorem ofLead?_four {v : Nat} (low : 0x10000 ≤ v) (high : v < 0x110000) :
    ∃ next, Pending.ofLead? (UInt8.ofNat (v / 262144 % 8 + 240)) = some next ∧
      next.bits = v / 262144 ∧ next.missing = 3 ∧
      next.low ≤ v / 4096 % 64 + 128 ∧ v / 4096 % 64 + 128 ≤ next.high := by
  -- The bounds keep out what fits into three bytes, and what lies beyond the last character.
  rw [Pending.ofLead?, toNat_ofNat_byte (by omega), if_neg (by omega), if_neg (by omega),
    if_neg (by omega), if_neg (by omega)]
  split
  · exact ⟨_, rfl, by dsimp only; omega⟩
  split
  · exact ⟨_, rfl, by dsimp only; omega⟩
  · rw [if_pos (by omega)]
    exact ⟨_, rfl, by dsimp only; omega⟩

theorem decodeFrom_three {v : Nat} (low : 0x800 ≤ v) (high : v < 0x10000)
    (scalar : v < 0xD800 ∨ 0xDFFF < v) :
    decodeFrom offset none []
        (UInt8.ofNat (v / 4096 % 16 + 224) :: UInt8.ofNat (v / 64 % 64 + 128) ::
          UInt8.ofNat (v % 64 + 128) :: rest) =
      (decodeFrom (offset + 3) none [] rest).map (Char.ofNat v :: ·) := by
  have first : (UInt8.ofNat (v / 4096 % 16 + 224)).toNat = v / 4096 + 224 := by
    rw [toNat_ofNat_byte (by omega)]
    omega
  obtain ⟨next, lead, bits, missing, inside⟩ := ofLead?_three low high scalar
  have value : (v / 4096 * 64 + (v / 64 % 64 + 128) % 64) * 64 + (v % 64 + 128) % 64 = v := by omega
  rw [decodeFrom_lead (by omega) lead,
    decodeFrom_middle (by rwa [toNat_continuation]) (by omega),
    decodeFrom_last (by simp only [toNat_continuation]; omega) (by dsimp only; omega)]
  simp only [toNat_continuation, bits, value]

theorem decodeFrom_four {v : Nat} (low : 0x10000 ≤ v) (high : v < 0x110000) :
    decodeFrom offset none []
        (UInt8.ofNat (v / 262144 % 8 + 240) :: UInt8.ofNat (v / 4096 % 64 + 128) ::
          UInt8.ofNat (v / 64 % 64 + 128) :: UInt8.ofNat (v % 64 + 128) :: rest) =
      (decodeFrom (offset + 4) none [] rest).map (Char.ofNat v :: ·) := by
  have first : (UInt8.ofNat (v / 262144 % 8 + 240)).toNat = v / 262144 + 240 := by
    rw [toNat_ofNat_byte (by omega)]
    omega
  obtain ⟨next, lead, bits, missing, inside⟩ := ofLead?_four low high
  have value : ((v / 262144 * 64 + (v / 4096 % 64 + 128) % 64) * 64 + (v / 64 % 64 + 128) % 64) * 64 +
      (v % 64 + 128) % 64 = v := by
    omega
  rw [decodeFrom_lead (by omega) lead,
    decodeFrom_middle (by rwa [toNat_continuation]) (by omega),
    decodeFrom_middle (by simp only [toNat_continuation]; omega) (by dsimp only; omega),
    decodeFrom_last (by simp only [toNat_continuation]; omega) (by dsimp only; omega)]
  simp only [toNat_continuation, bits, value]

/-- The bytes of a character are read as that character, whatever follows. -/
theorem decodeFrom_encodeChar (c : Char) (offset : Nat) (rest : Bytes) :
    ∃ next, decodeFrom offset none [] (String.utf8EncodeChar c ++ rest) =
      (decodeFrom next none [] rest).map (c :: ·) := by
  have scalar : c.val.toNat < 0xD800 ∨ 0xDFFF < c.val.toNat ∧ c.val.toNat < 0x110000 := c.valid
  have whole : Char.ofNat c.val.toNat = c := Char.ofNat_toNat c
  unfold String.utf8EncodeChar
  dsimp only
  split
  next one =>
    have first : (UInt8.ofNat c.val.toNat).toNat = c.val.toNat := toNat_ofNat_byte (by omega)
    refine ⟨offset + 1, ?_⟩
    rw [List.cons_append, List.nil_append, decodeFrom_single (by omega), first, whole]
  next above =>
    split
    next two =>
      refine ⟨offset + 2, ?_⟩
      simp only [List.cons_append, List.nil_append]
      rw [decodeFrom_two (by omega) (by omega), whole]
    next above =>
      split
      next three =>
        refine ⟨offset + 3, ?_⟩
        simp only [List.cons_append, List.nil_append]
        rw [decodeFrom_three (by omega) (by omega) (by omega), whole]
      next four =>
        refine ⟨offset + 4, ?_⟩
        simp only [List.cons_append, List.nil_append]
        rw [decodeFrom_four (by omega) (by omega), whole]

/-- Decoding what was encoded gives the text back. -/
theorem decodeUtf8_encodeUtf8 (text : Text) : decodeUtf8 (encodeUtf8 text) = .ok text := by
  suffices each : ∀ offset, decodeFrom offset none [] (encodeUtf8 text) = .ok text from each 0
  induction text with
  | nil => exact fun _ => rfl
  | cons c rest ih =>
    intro offset
    obtain ⟨next, read⟩ := decodeFrom_encodeChar c offset (encodeUtf8 rest)
    rw [encodeUtf8, List.flatMap_cons, ← encodeUtf8, read, ih next]
    rfl

section
variable {unencodable : List Char} {text : Text} {bytes : Bytes}

theorem dropWhile_encodable :
    (text.dropWhile fun c => !unencodable.contains c) = [] ↔ ∀ c ∈ text, c ∉ unencodable := by
  induction text with
  | nil => simp
  | cons c rest ih =>
    by_cases lacks : c ∈ unencodable
    · simp [lacks]
    · rw [List.dropWhile_cons_of_pos (by simp [lacks]), ih]
      simp [lacks]

theorem encode_eq_ok_iff :
    encode unencodable text = .ok bytes ↔
      (∀ c ∈ text, c ∉ unencodable) ∧ bytes = encodeUtf8 text := by
  rw [← dropWhile_encodable, encode]
  split
  next encodable =>
    constructor
    · rintro ⟨⟩
      exact ⟨encodable, rfl⟩
    · rintro ⟨_, rfl⟩
      rfl
  next lacking =>
    constructor
    · rintro ⟨⟩
    · rintro ⟨encodable, _⟩
      exact absurd encodable lacking

theorem encode_fails_iff :
    (∃ error, encode unencodable text = .error error) ↔ ∃ c ∈ text, c ∈ unencodable := by
  have succeeds : (∃ bytes, encode unencodable text = .ok bytes) ↔ ∀ c ∈ text, c ∉ unencodable := by
    simp [encode_eq_ok_iff]
  cases encoded : encode unencodable text with
  | ok bytes =>
    have encodable := succeeds.mp ⟨bytes, encoded⟩
    simpa using encodable
  | error error =>
    simp only [encoded, reduceCtorEq, exists_false, false_iff] at succeeds
    simpa using succeeds

theorem decodeUtf8_of_encode (encoded : encode unencodable text = .ok bytes) :
    decodeUtf8 bytes = .ok text := by
  rw [(encode_eq_ok_iff.mp encoded).2, decodeUtf8_encodeUtf8]

end

end OptionsApi.Text
