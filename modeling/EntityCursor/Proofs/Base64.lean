import EntityCursor.Base64

/-!
Reading base64 undoes writing it, and writing undoes reading. Characters and values below 64 belong
to each other, no such character is the fill, and the bytes of a group are the digits of its bits to
the base 256.
-/

namespace EntityCursor

namespace Base64

@[simp]
theorem value?_digit {value : Nat} (below : value < 64) : value? (digit value) = some value := by
  have all : ∀ value : Fin 64, value? (digit value) = some value.val := by decide
  exact all ⟨value, below⟩

@[simp]
theorem digit_ne_fill {value : Nat} (below : value < 64) : digit value ≠ '=' := by
  have all : ∀ value : Fin 64, digit value ≠ '=' := by decide
  exact all ⟨value, below⟩

theorem ofNat_toNat_of_eq {byte : UInt8} {value : Nat} (same : value = byte.toNat) :
    UInt8.ofNat value = byte := by
  rw [same, UInt8.ofNat_toNat]

@[simp]
theorem decode?_encode (bytes : List UInt8) : decode? (encode bytes) = some bytes := by
  fun_induction encode bytes with
  | case1 => rfl
  | case2 first bits =>
      have bound := first.toNat_lt
      have high : value? (digit (bits / 64)) = some (bits / 64) := value?_digit (by omega)
      have low : value? (digit (bits % 64)) = some (bits % 64) := value?_digit (by omega)
      have whole : (bits / 64 * 64 + bits % 64) % 16 = 0 := by omega
      have byte : UInt8.ofNat ((bits / 64 * 64 + bits % 64) / 16) = first :=
        ofNat_toNat_of_eq (by omega)
      simp [decode?, high, low, whole, byte]
  | case3 first second bits =>
      have firstBound := first.toNat_lt
      have secondBound := second.toNat_lt
      have high : value? (digit (bits / 4096)) = some (bits / 4096) := value?_digit (by omega)
      have middle : value? (digit (bits / 64 % 64)) = some (bits / 64 % 64) :=
        value?_digit (by omega)
      have low : value? (digit (bits % 64)) = some (bits % 64) := value?_digit (by omega)
      have gathered : (bits / 4096 * 64 + bits / 64 % 64) * 64 + bits % 64 = bits := by omega
      have whole : bits % 4 = 0 := by omega
      have firstByte : UInt8.ofNat (bits / 1024) = first := ofNat_toNat_of_eq (by omega)
      have secondByte : UInt8.ofNat (bits / 4 % 256) = second := ofNat_toNat_of_eq (by omega)
      have notFill : digit (bits % 64) ≠ '=' := digit_ne_fill (by omega)
      rw [decode?.eq_3 _ _ _ notFill]
      simp [high, middle, low, gathered, whole, firstByte, secondByte]
  | case4 first second third rest bits inductionHypothesis =>
      have firstBound := first.toNat_lt
      have secondBound := second.toNat_lt
      have thirdBound := third.toNat_lt
      have highest : value? (digit (bits / 262144)) = some (bits / 262144) :=
        value?_digit (by omega)
      have high : value? (digit (bits / 4096 % 64)) = some (bits / 4096 % 64) :=
        value?_digit (by omega)
      have low : value? (digit (bits / 64 % 64)) = some (bits / 64 % 64) := value?_digit (by omega)
      have lowest : value? (digit (bits % 64)) = some (bits % 64) := value?_digit (by omega)
      have notFill : digit (bits % 64) ≠ '=' := digit_ne_fill (by omega)
      have gathered : ((bits / 262144 * 64 + bits / 4096 % 64) * 64 + bits / 64 % 64) * 64 +
          bits % 64 = bits := by omega
      have firstByte : UInt8.ofNat (bits / 65536) = first := ofNat_toNat_of_eq (by omega)
      have secondByte : UInt8.ofNat (bits / 256 % 256) = second := ofNat_toNat_of_eq (by omega)
      have thirdByte : UInt8.ofNat (bits % 256) = third := ofNat_toNat_of_eq (by omega)
      simp [decode?, notFill, highest, high, low, lowest, gathered, firstByte, secondByte,
        thirdByte, inductionHypothesis]

/-! Writing undoes reading. -/

theorem toNat_le_of_le {low high : Char} (ordered : low ≤ high) : low.toNat ≤ high.toNat :=
  UInt32.le_iff_toNat_le.mp (Char.le_def.mp ordered)

theorem toNat_lt_of_value? {character : Char} {value : Nat}
    (read : value? character = some value) : character.toNat < 128 := by
  unfold value? at read
  split at read
  · next upper => exact Nat.lt_of_le_of_lt (toNat_le_of_le upper.2) (by decide)
  · split at read
    · next lower => exact Nat.lt_of_le_of_lt (toNat_le_of_le lower.2) (by decide)
    · split at read
      · next decimal => exact Nat.lt_of_le_of_lt (toNat_le_of_le decimal.2) (by decide)
      · split at read
        · next plus =>
            rw [plus]
            decide
        · split at read
          · next slash =>
              rw [slash]
              decide
          · cases read

theorem digit_of_value? {character : Char} {value : Nat} (read : value? character = some value) :
    value < 64 ∧ digit value = character := by
  have all : ∀ code : Fin 128, ∀ value ∈ value? (Char.ofNat code.val),
      value < 64 ∧ digit value = Char.ofNat code.val := by decide
  have here := all ⟨character.toNat, toNat_lt_of_value? read⟩ value
  simp only [Char.ofNat_toNat] at here
  exact here read

theorem toNat_ofNat_of_lt {value : Nat} (below : value < 256) :
    (UInt8.ofNat value).toNat = value := by
  rw [UInt8.toNat_ofNat', Nat.mod_eq_of_lt below]

/-- Only what bytes are written as can be read. -/
theorem encode_of_decode? {text : List Char} {bytes : List UInt8}
    (read : decode? text = some bytes) : encode bytes = text := by
  fun_induction decode? text generalizing bytes with
  | case1 =>
      cases read
      rfl
  | case2 first second =>
      simp only [Option.bind_eq_bind, Option.bind_eq_some_iff] at read
      obtain ⟨high, readHigh, low, readLow, bits⟩ := read
      obtain ⟨highBound, rfl⟩ := digit_of_value? readHigh
      obtain ⟨lowBound, rfl⟩ := digit_of_value? readLow
      split at bits
      · next whole =>
          cases bits
          have byte : (UInt8.ofNat ((high * 64 + low) / 16)).toNat = (high * 64 + low) / 16 :=
            toNat_ofNat_of_lt (by omega)
          have gathered : (high * 64 + low) / 16 * 16 = high * 64 + low := by omega
          have upper : (high * 64 + low) / 64 = high := by omega
          have lower : (high * 64 + low) % 64 = low := by omega
          rw [encode, byte, gathered, upper, lower]
      · cases bits
  | case3 first second third _ =>
      simp only [Option.bind_eq_bind, Option.bind_eq_some_iff] at read
      obtain ⟨high, readHigh, middle, readMiddle, low, readLow, bits⟩ := read
      obtain ⟨highBound, rfl⟩ := digit_of_value? readHigh
      obtain ⟨middleBound, rfl⟩ := digit_of_value? readMiddle
      obtain ⟨lowBound, rfl⟩ := digit_of_value? readLow
      split at bits
      · next whole =>
          cases bits
          generalize gathered : (high * 64 + middle) * 64 + low = bits at whole ⊢
          have firstByte : (UInt8.ofNat (bits / 1024)).toNat = bits / 1024 :=
            toNat_ofNat_of_lt (by omega)
          have secondByte : (UInt8.ofNat (bits / 4 % 256)).toNat = bits / 4 % 256 :=
            toNat_ofNat_of_lt (by omega)
          have joined : (bits / 1024 * 256 + bits / 4 % 256) * 4 = bits := by omega
          have upper : bits / 4096 = high := by omega
          have between : bits / 64 % 64 = middle := by omega
          have lower : bits % 64 = low := by omega
          rw [encode, firstByte, secondByte, joined, upper, between, lower]
      · cases bits
  | case4 first second third fourth rest _ _ inductionHypothesis =>
      simp only [Option.bind_eq_bind, Option.bind_eq_some_iff] at read
      obtain ⟨highest, readHighest, high, readHigh, low, readLow, lowest, readLowest, others,
        readOthers, same⟩ := read
      obtain ⟨highestBound, rfl⟩ := digit_of_value? readHighest
      obtain ⟨highBound, rfl⟩ := digit_of_value? readHigh
      obtain ⟨lowBound, rfl⟩ := digit_of_value? readLow
      obtain ⟨lowestBound, rfl⟩ := digit_of_value? readLowest
      cases same
      generalize gathered : ((highest * 64 + high) * 64 + low) * 64 + lowest = bits
      have firstByte : (UInt8.ofNat (bits / 65536)).toNat = bits / 65536 :=
        toNat_ofNat_of_lt (by omega)
      have secondByte : (UInt8.ofNat (bits / 256 % 256)).toNat = bits / 256 % 256 :=
        toNat_ofNat_of_lt (by omega)
      have thirdByte : (UInt8.ofNat (bits % 256)).toNat = bits % 256 :=
        toNat_ofNat_of_lt (by omega)
      have joined : (bits / 65536 * 256 + bits / 256 % 256) * 256 + bits % 256 = bits := by omega
      have first : bits / 262144 = highest := by omega
      have second : bits / 4096 % 64 = high := by omega
      have third : bits / 64 % 64 = low := by omega
      have fourth : bits % 64 = lowest := by omega
      rw [encode, firstByte, secondByte, thirdByte, joined, first, second, third, fourth,
        inductionHypothesis readOthers]
  | case5 => cases read

theorem decode?_eq_some_iff {text : List Char} {bytes : List UInt8} :
    decode? text = some bytes ↔ text = encode bytes := by
  constructor
  · intro read
    exact (encode_of_decode? read).symm
  · rintro rfl
    exact decode?_encode bytes

end Base64

end EntityCursor
