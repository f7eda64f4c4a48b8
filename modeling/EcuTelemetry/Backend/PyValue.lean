/-
  EcuTelemetry.Backend.PyValue

  The Python values the rule engine computes with: floats as a type with
  Python's operations on it, and JSON documents with the accesses the code
  makes (`get`, iteration, truth, `float(..)`, `int(..)`, `str(..)`).

  The arithmetic of floats is a parameter: no rounding rule is fixed here,
  each result says what it needs.
-/

import EcuTelemetry.Backend.Protocol
import EcuTelemetry.Lib.Dict
import EcuTelemetry.Lib.Proc

namespace EcuTelemetry.Backend

/-- Python's `float`. -/
class PyFloat (F : Type) where
  add : F → F → F
  sub : F → F → F
  mul : F → F → F
  abs : F → F
  lt : F → F → Bool
  le : F → F → Bool
  eq : F → F → Bool
  eqInt : F → Int → Bool
  /-- raises `ZeroDivisionError` -/
  div : F → F → Except PyError F
  /-- `math.sqrt`, raises `ValueError` -/
  sqrt : F → Except PyError F
  /-- `float(n)`, raises `OverflowError` -/
  ofInt : Int → Except PyError F
  /-- `float(s)`, raises `ValueError` -/
  parse : String → Except PyError F
  /-- `int(x)`, raises `ValueError` or `OverflowError` -/
  toInt : F → Except PyError Int
  /-- a literal of the source -/
  ofRat : ℚ → F
  /-- a field of a frame -/
  ofF64 : F64 → F
  /-- `round(x, n)` -/
  round : F → Nat → F
  /-- `str(x)` -/
  repr : F → String
  /-- `format(x, ".nf")` -/
  fixed : F → Nat → String
  /-- what SQLite makes of a REAL in a TEXT column: a text, or NULL of a NaN -/
  sqlText : F → Option String

/-- A code point that no character has. -/
def isSurrogate (c : Nat) : Bool := 0xD800 ≤ c && c ≤ 0xDFFF

/-- A text with a lone surrogate, by its code points.  An escape of JSON can write one;
    UTF-8 has no bytes for it. -/
structure LoneText where
  codes : List Nat
  lone : codes.any isSurrogate = true
deriving DecidableEq

/-- The text between two others. -/
def LoneText.between (before : String) (t : LoneText) (after : String) : LoneText where
  codes := before.toList.map Char.toNat ++ t.codes ++ after.toList.map Char.toNat
  lone := by rw [List.any_append, List.any_append, t.lone, Bool.or_true, Bool.true_or]

/-- A value of a JSON document.  The keys of an object are texts without lone
    surrogates: no key with one is ever asked for, and it stands as any other key that
    is not. -/
inductive Json (F : Type)
  | null
  | bool (b : Bool)
  | int (n : Int)
  | float (x : F)
  | str (s : String)
  | lone (t : LoneText)
  | arr (xs : List (Json F))
  | obj (kvs : List (String × Json F))

/-- The texts Python makes of values. -/
class PyText (F : Type) where
  /-- `str(v)` of all but a text with a lone surrogate; the `repr` of nested values
      escapes those -/
  pyStr : Json F → String
  /-- `iso(ts)` of backend/app/db.py -/
  iso : F → String

namespace Json

variable {F : Type} [PyFloat F]

/-- A number, booleans included. -/
def num? : Json F → Option (Int ⊕ F)
  | bool b => some (.inl (if b then 1 else 0))
  | int n => some (.inl n)
  | float x => some (.inr x)
  | _ => none

/-- `==` on hashable values. -/
def keyEq (a b : Json F) : Bool :=
  match a, b with
  | null, null => true
  | str s, str t => s == t
  | lone s, lone t => s == t
  | a, b =>
    match a.num?, b.num? with
    | some (.inl m), some (.inl n) => m == n
    | some (.inl m), some (.inr y) => PyFloat.eqInt y m
    | some (.inr x), some (.inl n) => PyFloat.eqInt x n
    | some (.inr x), some (.inr y) => PyFloat.eq x y
    | _, _ => false

instance : BEq (Json F) := ⟨keyEq⟩

theorem exact_str (s : String) : Dict.Exact (str s : Json F) := by
  intro x
  change keyEq x (str s) = true ↔ _
  cases x <;> simp [keyEq, num?]

theorem exact_lone (t : LoneText) : Dict.Exact (lone t : Json F) := by
  intro x
  change keyEq x (lone t) = true ↔ _
  cases x <;> simp [keyEq, num?]

theorem str_beq {s : String} {v : Json F} : ((str s : Json F) == v) = true ↔ v = str s := by
  change keyEq (str s) v = true ↔ _
  cases v with
  | str t => rw [keyEq, beq_iff_eq, str.injEq]; exact eq_comm
  | _ => exact ⟨fun h => by simp [keyEq, num?] at h, nofun⟩

/-- Lists and dictionaries cannot be keys. -/
def hashable : Json F → Bool
  | arr _ => false
  | obj _ => false
  | _ => true

/-- `bool(v)`. -/
def truthy : Json F → Bool
  | null => false
  | bool b => b
  | int n => n ≠ 0
  | float x => !PyFloat.eqInt x 0
  | str s => s ≠ ""
  | lone _ => true
  | arr xs => !xs.isEmpty
  | obj kvs => !kvs.isEmpty

/-- `float(v)`. -/
def toFloat : Json F → Except PyError F
  | bool b => PyFloat.ofInt (if b then 1 else 0)
  | int n => PyFloat.ofInt n
  | float x => .ok x
  | str s => PyFloat.parse s
  | lone _ => .error .valueError
  | _ => .error .typeError

/-- `int(v)`. -/
def toInt : Json F → Except PyError Int
  | bool b => .ok (if b then 1 else 0)
  | int n => .ok n
  | float x => PyFloat.toInt x
  | str s =>
    match pyInt s.toList with
    | some n => .ok n
    | none => .error .valueError
  | lone _ => .error .valueError
  | _ => .error .typeError

/-- `v.get(key)`; only a dictionary has `get`. -/
def get (v : Json F) (key : String) : Except PyError (Option (Json F)) :=
  match v with
  | obj kvs => .ok (Dict.get? kvs key)
  | _ => .error .attributeError

/-- `v.get(key, default)`. -/
def getD (v : Json F) (key : String) (default : Json F) : Except PyError (Json F) :=
  (v.get key).map (·.getD default)

/-- One character of a text. -/
def ofCode (c : Nat) : Json F :=
  if h : isSurrogate c = true then lone ⟨[c], by rw [List.any_cons, h, Bool.true_or]⟩
  else str (String.singleton (Char.ofNat c))

/-- What a `for` loop over `v` runs through. -/
def iter : Json F → Except PyError (List (Json F))
  | arr xs => .ok xs
  | obj kvs => .ok (kvs.map fun kv => str kv.1)
  | str s => .ok (s.toList.map fun c => str (String.singleton c))
  | lone t => .ok (t.codes.map ofCode)
  | _ => .error .typeError

/-- `v or w`. -/
def orElse (v : Option (Json F)) (w : Json F) : Json F :=
  match v with
  | some v => if v.truthy then v else w
  | none => w

/-- `key in t` for a dictionary `t` with text keys: the value under `key`. -/
def lookupIn (key : Json F) (t : Dict String (Json F)) : Except PyError (Option (Json F)) :=
  match key with
  | str s => .ok (Dict.get? t s)
  | arr _ => .error .typeError
  | obj _ => .error .typeError
  | _ => .ok none

/-- A bound SQL parameter. -/
def sqlBind : Json F → Except PyError (Json F)
  | arr _ => .error .sqliteError
  | obj _ => .error .sqliteError
  | lone _ => .error .unicodeEncodeError
  | int n => if -(2 ^ 63) ≤ n ∧ n < 2 ^ 63 then .ok (int n) else .error .overflowError
  | v => .ok v

/-- What a TEXT column holds for a bound parameter; `none` is NULL. -/
def sqlText (v : Json F) : Except PyError (Option String) :=
  v.sqlBind.map fun
    | str s => some s
    | int n => some (toString n)
    | bool b => some (if b then "1" else "0")
    | float x => PyFloat.sqlText x
    | _ => none

variable [PyText F]

/-- `str(v)`. -/
def toStr : Json F → Json F
  | lone t => lone t
  | v => str (PyText.pyStr v)

/-- The text `{v}` between two others in an f-string. -/
def formatted (before : String) (v : Json F) (after : String) : Json F :=
  match v with
  | lone t => lone (t.between before after)
  | v => str (before ++ PyText.pyStr v ++ after)

end Json

end EcuTelemetry.Backend
