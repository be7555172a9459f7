/-
# Columns: `service/src/database.rs`

What SQLite keeps in a column and how the service writes and reads it.  A column is `NULL`, a 64-bit
integer or a text; the columns of the service hold nothing else.  Numbers are written as `i32`,
`i64` or `u32`, and read back with a range check.  Enumerations are written as the JSON text of the
variant's name; a text that is no variant reads as the default.
-/

import Ceasefire.Lib.Lists
import Ceasefire.Models
import Mathlib.Data.String.Basic

namespace Ceasefire
namespace Service

/-- A value of a column. -/
inductive SqlValue
  | null
  | integer (n : ℤ)
  | text (s : String)
  deriving DecidableEq, Repr

namespace SqlValue

/-! ## The order of values -/

/-- `ORDER BY`: `NULL` first, then integers, then texts by their bytes. -/
def le : SqlValue → SqlValue → Prop
  | .null, _ => True
  | .integer _, .null => False
  | .integer m, .integer n => m ≤ n
  | .integer _, .text _ => True
  | .text s, .text s' => s ≤ s'
  | .text _, _ => False

instance : DecidableRel le
  | .null, _ => isTrue trivial
  | .integer _, .null => isFalse id
  | .integer m, .integer n => inferInstanceAs (Decidable (m ≤ n))
  | .integer _, .text _ => isTrue trivial
  | .text s, .text s' => inferInstanceAs (Decidable (s ≤ s'))
  | .text _, .null => isFalse id
  | .text _, .integer _ => isFalse id

instance : IsTrans SqlValue le where
  trans a b c hab hbc := by
    cases a <;> cases b <;> cases c <;>
      first
      | trivial
      | exact absurd hab id
      | exact absurd hbc id
      | exact LE.le.trans hab hbc

instance : Std.Total le where
  total a b := by
    cases a <;> cases b <;>
      first
      | exact Or.inl trivial
      | exact Or.inr trivial
      | exact le_total _ _

/-! ## Writing -/

/-- An `i32` as a parameter. -/
def ofI32 (n : BitVec 32) : SqlValue := integer n.toInt

/-- A `u32` or a `u16` as a parameter. -/
def ofUnsigned {w : ℕ} (n : BitVec w) : SqlValue := integer n.toNat

/-- An `Option<T>` as a parameter. -/
def ofOption {α : Type} (f : α → SqlValue) : Option α → SqlValue
  | none => null
  | some a => f a

/-! ## Reading -/

/-- A `w`-bit signed integer. -/
def getSigned (w : ℕ) : SqlValue → Option (BitVec w)
  | integer n => if (BitVec.ofInt w n).toInt = n then some (BitVec.ofInt w n) else none
  | _ => none

/-- A `w`-bit unsigned integer. -/
def getUnsigned (w : ℕ) : SqlValue → Option (BitVec w)
  | integer n => if ((BitVec.ofInt w n).toNat : ℤ) = n then some (BitVec.ofInt w n) else none
  | _ => none

/-- `row.get::<_, String>`. -/
def getText : SqlValue → Option String
  | text s => some s
  | _ => none

/-- `row.get::<_, Option<T>>`. -/
def getOption {α : Type} (get : SqlValue → Option α) : SqlValue → Option (Option α)
  | null => some none
  | v => (get v).map some

@[simp] theorem getSigned_ofI32 (n : BitVec 32) : getSigned 32 (ofI32 n) = some n := by
  simp [getSigned, ofI32]

@[simp] theorem getUnsigned_ofUnsigned {w : ℕ} (n : BitVec w) :
    getUnsigned w (ofUnsigned n) = some n := by
  simp [getUnsigned, ofUnsigned]

/-- What reads as an unsigned integer is that integer. -/
theorem getUnsigned_eq_some {w : ℕ} {v : SqlValue} {n : BitVec w} :
    getUnsigned w v = some n ↔ v = ofUnsigned n := by
  constructor
  · intro h
    cases v with
    | null => exact absurd h (by simp [getUnsigned])
    | text s => exact absurd h (by simp [getUnsigned])
    | integer m =>
        rw [getUnsigned] at h
        split_ifs at h with hfits
        obtain rfl := Option.some.inj h
        rw [ofUnsigned, hfits]
  · rintro rfl
    exact getUnsigned_ofUnsigned n

/-- What reads as a signed integer is that integer. -/
theorem getSigned_eq_some {w : ℕ} {v : SqlValue} {n : BitVec w} :
    getSigned w v = some n ↔ v = integer n.toInt := by
  constructor
  · intro h
    cases v with
    | null => exact absurd h (by simp [getSigned])
    | text s => exact absurd h (by simp [getSigned])
    | integer m =>
        rw [getSigned] at h
        split_ifs at h with hfits
        obtain rfl := Option.some.inj h
        rw [hfits]
  · rintro rfl
    simp [getSigned]

theorem getText_eq_some {v : SqlValue} {s : String} : getText v = some s ↔ v = text s := by
  cases v <;> simp [getText]

/-- What reads as an option is the option as it is written. -/
theorem getOption_eq_some {α : Type} {get : SqlValue → Option α} {f : α → SqlValue}
    (hget : ∀ {v a}, get v = some a ↔ v = f a) (hnull : ∀ a, f a ≠ null) {v : SqlValue}
    {o : Option α} : getOption get v = some o ↔ v = ofOption f o := by
  have hvalue : v ≠ null → (getOption get v = some o ↔ (get v).map some = some o) := fun hv => by
    cases v with
    | null => exact absurd rfl hv
    | integer n => exact Iff.rfl
    | text s => exact Iff.rfl
  by_cases hv : v = null
  · subst hv
    cases o with
    | none => exact iff_of_true rfl rfl
    | some a => exact iff_of_false (fun h => nomatch Option.some.inj h) fun h => hnull a h.symm
  · rw [hvalue hv, Option.map_eq_some_iff]
    cases o with
    | none => exact iff_of_false (fun ⟨a, _, h⟩ => nomatch h) hv
    | some a =>
        simp only [Option.some.injEq, exists_eq_right]
        exact hget

@[simp] theorem getText_text (s : String) : getText (text s) = some s := rfl

/-- An option reads back as it was written. -/
theorem getOption_ofOption {α β : Type} {f : α → SqlValue} {get : SqlValue → Option β} {g : α → β}
    (hnull : ∀ a, f a ≠ null) (hget : ∀ a, get (f a) = some (g a)) (o : Option α) :
    getOption get (ofOption f o) = some (o.map g) := by
  cases o with
  | none => rfl
  | some a =>
      have hvalue : getOption get (f a) = (get (f a)).map some := by
        cases hfa : f a with
        | null => exact absurd hfa (hnull a)
        | integer n => rfl
        | text s => rfl
      show getOption get (f a) = _
      rw [hvalue, hget]
      rfl

@[simp] theorem getOption_text (o : Option String) :
    getOption getText (ofOption text o) = some o := by
  rw [getOption_ofOption (fun _ => SqlValue.noConfusion) getText_text, Option.map_id']

theorem ofI32_ne_null (n : BitVec 32) : ofI32 n ≠ null := by simp [ofI32]

@[simp] theorem getOption_i32 (o : Option (BitVec 32)) :
    getOption (getSigned 32) (ofOption ofI32 o) = some o := by
  rw [getOption_ofOption ofI32_ne_null getSigned_ofI32, Option.map_id']

end SqlValue

/-! ## Enumerations -/

/-- An enumeration that serde writes by the names of its variants. -/
class JsonEnum (α : Type) where
  name : α → String
  variants : List α
  /-- `Default::default`. -/
  default : α
  mem_variants : ∀ a, a ∈ variants
  name_injective : Function.Injective name

/-- `Display` writes the same name. -/
def display {α : Type} [JsonEnum α] (a : α) : String := JsonEnum.name a

/-- `json_to_string`: the name, in quotes. -/
def jsonToString {α : Type} [JsonEnum α] (a : α) : String := "\"" ++ JsonEnum.name a ++ "\""

/-- `parse_json`, on the texts that `json_to_string` writes; any other is taken for damaged. -/
def parseJson {α : Type} [JsonEnum α] (s : String) : α :=
  (JsonEnum.variants.find? fun a : α => decide (jsonToString a = s)).getD JsonEnum.default

theorem jsonToString_injective {α : Type} [JsonEnum α] :
    Function.Injective (jsonToString : α → String) := by
  intro a b h
  refine JsonEnum.name_injective (String.ext ?_)
  have hchars := congrArg String.toList h
  simpa [jsonToString] using hchars

/-- **A variant reads back as it was written.** -/
@[simp] theorem parseJson_jsonToString {α : Type} [JsonEnum α] (a : α) :
    parseJson (jsonToString a) = a := by
  have hfind : (JsonEnum.variants.find? fun b : α => decide (jsonToString b = jsonToString a)) =
      some a := by
    cases hb : JsonEnum.variants.find? fun b : α => decide (jsonToString b = jsonToString a) with
    | none =>
        refine absurd (List.find?_eq_none.1 hb a (JsonEnum.mem_variants a)) ?_
        simp
    | some b =>
        have hname := List.find?_some hb
        rw [jsonToString_injective (of_decide_eq_true hname)]
  rw [parseJson, hfind, Option.getD_some]

theorem getOption_json {α : Type} [JsonEnum α] (o : Option α) :
    SqlValue.getOption SqlValue.getText (SqlValue.ofOption (fun a => .text (jsonToString a)) o) =
      some (o.map jsonToString) :=
  SqlValue.getOption_ofOption (fun _ => SqlValue.noConfusion)
    (fun a => SqlValue.getText_text (jsonToString a)) o

instance : JsonEnum RuleAction where
  name
    | .allow => "Allow"
    | .block => "Block"
  variants := [.allow, .block]
  default := .allow
  mem_variants a := by cases a <;> decide
  name_injective a b h := by
    cases a <;> cases b <;> first | rfl | exact absurd h (by decide)

instance : JsonEnum Direction where
  name
    | .both => "Both"
    | .inbound => "Inbound"
    | .outbound => "Outbound"
  variants := [.both, .inbound, .outbound]
  default := .both
  mem_variants d := by cases d <;> decide
  name_injective a b h := by
    cases a <;> cases b <;> first | rfl | exact absurd h (by decide)

instance : JsonEnum Protocol where
  name
    | .any => "Any"
    | .tcp => "Tcp"
    | .udp => "Udp"
    | .icmp => "Icmp"
    | .icmpv6 => "Icmpv6"
  variants := [.any, .tcp, .udp, .icmp, .icmpv6]
  default := .any
  mem_variants p := by cases p <;> decide
  name_injective a b h := by
    cases a <;> cases b <;> first | rfl | exact absurd h (by decide)

instance : JsonEnum NetworkZone where
  name
    | .internet => "Internet"
    | .localhost => "Localhost"
    | .lan => "Lan"
  variants := [.internet, .localhost, .lan]
  default := .internet
  mem_variants z := by cases z <;> decide
  name_injective a b h := by
    cases a <;> cases b <;> first | rfl | exact absurd h (by decide)

end Service
end Ceasefire
