import NestedQuery.Proofs.Number.Rounding
import NestedQuery.Proofs.Value.Bytes

/-!
# Binary parameters on the server's side

The server reads the bytes of a parameter as what it has inferred for the placeholder
(`WireType.decode?`); they are malformed if they are not as many as the type has, or not a text.
`WireValue.Says` is whether what it reads says the same as the value: the same truth value, text or
bytes, the same number, rounded to the width of a floating point type, and for an integer as a truth
value, whether it is not zero.

An integer follows the placeholder, and so does the width of a real, but not every pair of a value
and a type has such bytes, and those that do not are written all the same. The main result is
`Value.survives_iff`: the value comes through just for the pairs in `Value.Suits`, and what is
refused is an integer out of range and a list, nothing else.
-/

namespace NestedQuery

open NestedQuery.Number

/-! ### What the server reads -/

/-- A value as the server has it. -/
inductive WireValue where
  /-- A truth value. -/
  | bool (b : Bool)
  /-- An integer. -/
  | integer (i : Int)
  /-- A floating point number of a format. -/
  | number (format : Format) (d : Decoded)
  /-- A text. -/
  | text (s : String)
  /-- Bytes. -/
  | bytes (bytes : List UInt8)

namespace WireType

/-- The truth value of a byte. -/
def truthOf? : List UInt8 → Option WireValue
  | [b] => some (.bool (b != 0))
  | _ => none

/-- The integer of so many bytes. -/
def integerOf? (count : Nat) (bytes : List UInt8) : Option WireValue :=
  if bytes.length = count then some (.integer (ofTwosComplement count (ofBigEndian bytes)))
  else none

/-- The floating point number of so many bytes. -/
def numberOf? (format : Format) (count : Nat) (bytes : List UInt8) : Option WireValue :=
  if bytes.length = count then some (.number format (format.decode (ofBigEndian bytes))) else none

/-- What the server reads, if the bytes are well-formed for the type. No text of the server has a
zero byte. Numbers of any length, for which nothing is written in a form of their own, are left
out. -/
def decode? : WireType → List UInt8 → Option WireValue
  | bool, bytes => truthOf? bytes
  | int2, bytes => integerOf? 2 bytes
  | int4, bytes => integerOf? 4 bytes
  | int8, bytes => integerOf? 8 bytes
  | float4, bytes => numberOf? binary32 4 bytes
  | float8, bytes => numberOf? binary64 8 bytes
  | text, bytes => if 0 ∈ bytes then none else (textOfBytes? bytes).map .text
  | bytea, bytes => some (.bytes bytes)
  | numeric, _ => none

/-- Whether the type has an integer; all other types take those of eight bytes. -/
def Holds : WireType → Int → Prop
  | int2, i => -2 ^ 15 ≤ i ∧ i < 2 ^ 15
  | int4, i => -2 ^ 31 ≤ i ∧ i < 2 ^ 31
  | _, _ => True

end WireType

/-- What the server has says the same as the value. -/
def WireValue.Says : WireValue → Value → Prop
  | bool b, .bool b' => b = b'
  | bool b, .integer i => b = (i.toInt != 0)
  | integer j, .integer i => j = i.toInt
  | integer j, .real x => floatToInt? x = some j
  | number f d, .integer i => f.Rounds (.finite (i.toInt < 0) i.toInt.natAbs 0) d
  | number f d, .real x => f.Rounds (decodeFloat x) d
  | text t, .text s => t = s
  | bytes b, .blob b' => b = b'
  | _, _ => False

/-- The value comes through: the bytes are well-formed, and what they say is the same. -/
def Value.Survives (type : WireType) (v : Value) (bytes : List UInt8) : Prop :=
  ∃ w, type.decode? bytes = some w ∧ w.Says v

/-- The pairs of a type and a value that is written in a form of the type. -/
def Value.Suits : WireType → Value → Prop
  | .bool, bool _ | .bool, integer _ => True
  | .int2, integer _ | .int4, integer _ | .int8, integer _ => True
  | .float4, integer _ | .float8, integer _ | .float4, real _ | .float8, real _ => True
  | .int8, real x => x.toBits = 0
  | .text, text s => 0 ∉ s.toUTF8.toList
  | .bytea, blob _ => True
  | _, _ => False

/-! ### Reading what was written -/

namespace WireType

/-- The kinds of what is read for a type. -/
def Reads : WireType → WireValue → Prop
  | bool, .bool _ | int2, .integer _ | int4, .integer _ | int8, .integer _ => True
  | float4, .number .. | float8, .number .. | text, .text _ | bytea, .bytes _ => True
  | _, _ => False

theorem reads_of_decode?_eq_some {type : WireType} {bytes : List UInt8} {w : WireValue}
    (h : type.decode? bytes = some w) : type.Reads w := by
  cases type with
  | bool =>
    match bytes, h with
    | [b], h => cases h; trivial
  | int2 | int4 | int8 =>
    obtain ⟨-, h⟩ := Option.ite_none_right_eq_some.mp h
    cases h
    trivial
  | float4 | float8 =>
    obtain ⟨-, h⟩ := Option.ite_none_right_eq_some.mp h
    cases h
    trivial
  | text =>
    obtain ⟨-, h⟩ := Option.ite_none_left_eq_some.mp h
    obtain ⟨s, -, rfl⟩ := Option.map_eq_some_iff.mp h
    trivial
  | bytea => cases h; trivial
  | numeric => cases h

/-- Two's complement is read as the integer that it was written for. -/
theorem integerOf?_of_twosComplement? {count : Nat} (hcount : 0 < count) {i : Int}
    {bytes : List UInt8} (h : twosComplement? count i = some bytes) :
    integerOf? count bytes = some (.integer i) := by
  obtain ⟨hlength, hinteger⟩ := ofTwosComplement_of_twosComplement?_eq_some hcount h
  rw [integerOf?, if_pos hlength, hinteger]

/-- The bytes of a pattern are read as what the pattern stands for. -/
theorem numberOf?_bigEndian (f : Format) {count bits : Nat} (hbits : bits < 256 ^ count) :
    numberOf? f count (bigEndian count bits) = some (.number f (f.decode bits)) := by
  rw [numberOf?, if_pos (length_bigEndian _ _), ofBigEndian_bigEndian hbits]

end WireType

/-! ### Each kind of value -/

namespace Value

variable {type : WireType} {bytes : List UInt8}

/-- The pairs of a type and a value where something that is read for the type can say the same as a
value of this kind. -/
def Meets : WireType → Value → Prop
  | .bool, bool _ | .bool, integer _ => True
  | .int2, integer _ | .int4, integer _ | .int8, integer _ => True
  | .int2, real _ | .int4, real _ | .int8, real _ => True
  | .float4, integer _ | .float8, integer _ | .float4, real _ | .float8, real _ => True
  | .text, text _ => True
  | .bytea, blob _ => True
  | _, _ => False

theorem meets_of_says {v : Value} {w : WireValue} (hw : type.Reads w) (hmeaning : w.Says v) :
    v.Meets type := by
  -- The type decides on what is read, and this on the kind of the value.
  cases type <;> cases w <;>
    first | exact hw.elim | (cases v <;> first | exact hmeaning.elim | trivial)

theorem meets_of_survives {v : Value} (h : v.Survives type bytes) : v.Meets type :=
  let ⟨_, hw, hmeaning⟩ := h
  meets_of_says (WireType.reads_of_decode?_eq_some hw) hmeaning

theorem bool_survives_iff {b : Bool} (h : (bool b).wireBytes type = .ok (some bytes)) :
    (bool b).Survives type bytes ↔ (bool b).Suits type := by
  obtain rfl := Option.some.inj (Except.ok.inj h)
  cases type with
  | bool => exact ⟨fun _ => trivial, fun _ => ⟨_, rfl, by cases b <;> rfl⟩⟩
  | _ => exact iff_of_false meets_of_survives id

/-- The bytes of an integer, for the types that have one. -/
theorem integer_survives_iff {i : Int64} (htype : type ≠ .numeric)
    (h : (integer i).wireBytes type = .ok (some bytes)) :
    (integer i).Survives type bytes ↔ (integer i).Suits type := by
  -- The value is written, so the type has an integer like it.
  have hbytes : integerBytes? type i.toInt = some bytes := by
    cases hbytes : integerBytes? type i.toInt with
    | some bytes' =>
      rw [wireBytes, hbytes] at h
      exact Except.ok.inj h
    | none =>
      rw [wireBytes, hbytes] at h
      cases h
  cases type with
  | int2 | int4 | int8 =>
    exact iff_of_true
      ⟨_, WireType.integerOf?_of_twosComplement? (by decide) hbytes, rfl⟩ trivial
  | bool =>
    obtain rfl := Option.some.inj hbytes
    refine iff_of_true ⟨_, rfl, ?_⟩ trivial
    by_cases hi : i.toInt = 0
    · rw [if_pos hi, WireValue.Says, hi]
      rfl
    · rw [if_neg hi, WireValue.Says, bne_iff_ne.mpr hi]
      rfl
  | float4 =>
    obtain rfl := Option.some.inj hbytes
    exact iff_of_true ⟨_, WireType.numberOf?_bigEndian binary32
      (Format.encode_lt isProper_binary32 _ _ _), Format.rounds_encode isProper_binary32 _ _ _⟩
      trivial
  | float8 =>
    obtain rfl := Option.some.inj hbytes
    refine iff_of_true ⟨_, WireType.numberOf?_bigEndian binary64
      (floatOfInt i.toInt).toBits.toNat_lt, ?_⟩ trivial
    rw [toBits_floatOfInt]
    exact Format.rounds_encode isProper_binary64 _ _ _
  | text | bytea =>
    exact iff_of_false meets_of_survives id
  | numeric => exact absurd rfl htype

theorem real_survives_iff {x : Float} (htype : type ≠ .numeric)
    (h : (real x).wireBytes type = .ok (some bytes)) :
    (real x).Survives type bytes ↔ (real x).Suits type := by
  by_cases hfloat4 : type = .float4
  · subst hfloat4
    obtain rfl := Option.some.inj (Except.ok.inj h)
    obtain ⟨hrounds, hlt⟩ := rounds_narrowBits x
    exact iff_of_true ⟨_, WireType.numberOf?_bigEndian binary32 hlt, hrounds⟩ trivial
  · rw [wireBytes, if_neg hfloat4] at h
    obtain rfl := Option.some.inj (Except.ok.inj h)
    cases type with
    | float4 => exact absurd rfl hfloat4
    | float8 =>
      exact iff_of_true ⟨_, WireType.numberOf?_bigEndian binary64 x.toBits.toNat_lt,
        binary64.rounds_decode x.toBits.toNat_lt⟩ trivial
    | int8 =>
      -- The bits of the float are read as an integer, which is another number unless both are zero.
      have hread : WireType.decode? .int8 (bigEndian 8 x.toBits.toNat) =
          some (.integer (ofTwosComplement 8 x.toBits.toNat)) := by
        rw [WireType.decode?, WireType.integerOf?, if_pos (length_bigEndian _ _),
          ofBigEndian_bigEndian x.toBits.toNat_lt]
      have hzero := toInt?_decode_eq_some_iff x.toBits.toNat_lt
      constructor
      · rintro ⟨w, hw, hmeaning⟩
        obtain rfl := Option.some.inj (hread.symm.trans hw)
        exact UInt64.toNat_inj.mp (hzero.mp hmeaning)
      · intro hx
        exact ⟨_, hread, hzero.mpr (congrArg UInt64.toNat hx)⟩
    | int2 | int4 =>
      -- There are more bytes than the type has.
      refine iff_of_false ?_ id
      rintro ⟨w, hw, -⟩
      rw [WireType.decode?, WireType.integerOf?, length_bigEndian] at hw
      cases hw
    | bool | text | bytea =>
      exact iff_of_false meets_of_survives id
    | numeric => exact absurd rfl htype

theorem text_survives_iff {s : String} (h : (text s).wireBytes type = .ok (some bytes)) :
    (text s).Survives type bytes ↔ (text s).Suits type := by
  obtain rfl := Option.some.inj (Except.ok.inj h)
  cases type with
  | text =>
    constructor
    · rintro ⟨w, hw, -⟩
      exact (Option.ite_none_left_eq_some.mp hw).1
    · intro hs
      refine ⟨.text s, ?_, rfl⟩
      rw [WireType.decode?, if_neg hs, textOfBytes?_toUTF8]
      rfl
  | _ => exact iff_of_false meets_of_survives id

theorem blob_survives_iff {b : List UInt8} (h : (blob b).wireBytes type = .ok (some bytes)) :
    (blob b).Survives type bytes ↔ (blob b).Suits type := by
  obtain rfl := Option.some.inj (Except.ok.inj h)
  cases type with
  | bytea => exact iff_of_true ⟨_, rfl, rfl⟩ trivial
  | _ => exact iff_of_false meets_of_survives id

/-! ### What is refused -/

theorem twosComplement?_eq_none_iff {count : Nat} {i : Int} :
    twosComplement? count i = none ↔
      ¬ (-(twoTo (8 * count - 1) : Int) ≤ i ∧ i < twoTo (8 * count - 1)) := by
  rw [twosComplement?]
  simp only [ite_eq_right_iff, reduceCtorEq, imp_false]

/-- An integer is refused if the type has no such one. -/
theorem integerBytes?_eq_none_iff (type : WireType) (i : Int64) :
    integerBytes? type i.toInt = none ↔ ¬ type.Holds i.toInt := by
  have hfits : ¬ twosComplement? 8 i.toInt = none := by
    obtain ⟨lower, upper⟩ := fitsInt64_toInt i
    have hhalf : (twoTo (8 * 8 - 1) : Int) = 9223372036854775808 := rfl
    rw [twosComplement?_eq_none_iff, hhalf]
    omega
  cases type with
  | int2 | int4 => exact twosComplement?_eq_none_iff
  | int8 | text | bytea | numeric => exact iff_of_false hfits (fun h => h trivial)
  | float4 | float8 | bool => exact iff_of_false nofun (fun h => h trivial)

/-- **Which parameters come through.** Null is written as null, a list is refused, and an integer is
refused just if the type has no such one. Everything else is written, and the server reads the same
from the bytes just if the value suits the type. -/
theorem survives_iff (htype : type ≠ .numeric) (v : Value) :
    (v.wireBytes type = .ok none ↔ v = .null) ∧
      (v.wireBytes type = .error .list ↔ ∃ items, v = .list items) ∧
      (v.wireBytes type = .error .tooWide ↔ ∃ i, v = .integer i ∧ ¬ type.Holds i.toInt) ∧
      ∀ bytes, v.wireBytes type = .ok (some bytes) →
        (v.Survives type bytes ↔ v.Suits type) := by
  cases v with
  | null => simp [wireBytes]
  | bool b => exact ⟨by simp [wireBytes], by simp [wireBytes], by simp [wireBytes],
      fun _ => bool_survives_iff⟩
  | integer i =>
    refine ⟨?_, ?_, ?_, fun _ => integer_survives_iff htype⟩
    · rw [wireBytes]
      split <;> simp
    · rw [wireBytes]
      split <;> simp
    · have hrefused := integerBytes?_eq_none_iff type i
      rw [wireBytes]
      split
      · rename_i hbytes
        simpa [hbytes] using hrefused
      · rename_i hbytes
        simpa [hbytes] using hrefused
  | real x =>
    refine ⟨?_, ?_, ?_, fun _ => real_survives_iff htype⟩
    all_goals
      rw [wireBytes]
      split <;> simp
  | text s => exact ⟨by simp [wireBytes], by simp [wireBytes], by simp [wireBytes],
      fun _ => text_survives_iff⟩
  | blob b => exact ⟨by simp [wireBytes], by simp [wireBytes], by simp [wireBytes],
      fun _ => blob_survives_iff⟩
  | list items => simp [wireBytes]

/-- One and a half. -/
def oneAndAHalf : Float :=
  Float.ofBits 0x3ff8000000000000

/-- It is written in the same eight bytes for both types, and as an integer they are another
number. -/
theorem survives_iff_oneAndAHalf :
    WireType.int8 ≠ .numeric ∧ WireType.float8 ≠ .numeric ∧
      ∃ bytes, (real oneAndAHalf).wireBytes .int8 = .ok (some bytes) ∧
        ¬ (real oneAndAHalf).Survives .int8 bytes ∧
        (real oneAndAHalf).wireBytes .float8 = .ok (some bytes) ∧
        (real oneAndAHalf).Survives .float8 bytes := by
  have hbits : oneAndAHalf.toBits = 0x3ff8000000000000 := toBits_ofBits (by decide)
  have htype : WireType.int8 ≠ .numeric := by decide
  have htype' : WireType.float8 ≠ .numeric := by decide
  obtain ⟨-, -, -, hint8⟩ := survives_iff htype (real oneAndAHalf)
  obtain ⟨-, -, -, hfloat8⟩ := survives_iff htype' (real oneAndAHalf)
  refine ⟨htype, htype', bigEndian 8 oneAndAHalf.toBits.toNat, rfl, ?_, rfl,
    (hfloat8 _ rfl).mpr trivial⟩
  refine fun hsurvives => ?_
  have hzero : oneAndAHalf.toBits = 0 := (hint8 _ rfl).mp hsurvives
  rw [hbits] at hzero
  exact absurd hzero (by decide)

end Value

end NestedQuery
