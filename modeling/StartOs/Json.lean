import StartOs.Basic

/-!
# serde_json values

`Value` is `serde_json::Value`, and `Number` the three forms of `serde_json::Number`
(no modelled code reads a number; a float is kept as its bits).  An object holds its
fields as a `Map` (`StartOs.Basic`).

The migrations of `version::v0_3_3` reach into the `ui` document through five
operations, and each has its own definition here.

* `v[k]` through `Index` (`Value.index`): the field, or `null` when `v` is no object or
  has no field `k`.
* `Value::get` (`Value.get`): the field, when `v` is an object that has it.
* `v[k]` through `IndexMut` (`Value.modify`): a `null` is first replaced by an empty
  object and an absent field is inserted as `null`; on any other value serde_json panics.
  The panic is `none`.  An assignment `v[k] = x` is `Value.set`.
* `Map::remove` under `if let Value::Object(..)` (`Value.remove`), and the same under
  `if let Some(..) = v.get_mut(k)` (`Value.updateField`).
* `Value::as_str` and `Value::is_null`.

`Value.index` is `Value.get` with `null` for a missing field (`index_eq_getD`), so the
statements of the migration modules use `get` throughout.
-/

namespace StartOs

/-- `serde_json::Number`. -/
inductive Number where
  | posInt (n : UInt64)
  | negInt (n : Int)
  | float (bits : UInt64)
  deriving DecidableEq, Repr

/-- `serde_json::Value`. -/
inductive Value where
  | null
  | bool (b : Bool)
  | number (n : Number)
  | string (s : String)
  | array (elems : List Value)
  | object (fields : List (String × Value))
  deriving Inhabited

namespace Value

/-- `Value::get` with a string index. -/
def get : Value → String → Option Value
  | .object m, k => Map.get? m k
  | _, _ => none

/-- `v[k]` through `Index`. -/
def index (v : Value) (k : String) : Value :=
  match v with
  | .object m => (Map.get? m k).getD .null
  | _ => .null

/-- `v[k]` through `IndexMut`, followed by what the code does to the field it reaches:
`f` gives the field's new value, or `none` where the code panics further down. -/
def modify (v : Value) (k : String) (f : Value → Option Value) : Option Value :=
  match v with
  | .null => (fun w => .object [(k, w)]) <$> f .null
  | .object m => (fun w => .object (Map.insert m k w)) <$> f ((Map.get? m k).getD .null)
  | _ => none

/-- The assignment `v[k] = x`. -/
def set (v : Value) (k : String) (x : Value) : Option Value := v.modify k fun _ => some x

/-- `if let Value::Object(ref mut obj) = v { obj.remove(k); }`. -/
def remove : Value → String → Value
  | .object m, k => .object (Map.erase m k)
  | v, _ => v

/-- `if let Some(x) = v.get_mut(k) { .. }`: `g` applied to the field where it stands. -/
def updateField (v : Value) (k : String) (g : Value → Value) : Value :=
  match v with
  | .object m =>
    match Map.get? m k with
    | some x => .object (Map.insert m k (g x))
    | none => v
  | _ => v

/-- `Value::as_str`. -/
def asStr : Value → Option String
  | .string s => some s
  | _ => none

/-- `Value::is_null`. -/
def isNull : Value → Bool
  | .null => true
  | _ => false

/-- `IndexMut` panics exactly on a value that is neither an object nor `null`. -/
def IsObjectOrNull : Value → Prop
  | .null => True
  | .object _ => True
  | _ => False

@[simp] theorem get_object (m : List (String × Value)) (k : String) :
    (Value.object m).get k = Map.get? m k := rfl

@[simp] theorem get_null (k : String) : Value.null.get k = none := rfl

theorem index_eq_getD (v : Value) (k : String) : v.index k = (v.get k).getD .null := by
  cases v <;> rfl

theorem index_eq_string_iff (v : Value) (k s : String) :
    v.index k = .string s ↔ v.get k = some (.string s) := by
  rw [index_eq_getD]; cases v.get k <;> simp

@[simp] theorem modify_object (m : List (String × Value)) (k : String)
    (f : Value → Option Value) :
    (Value.object m).modify k f =
      (fun w => .object (Map.insert m k w)) <$> f (((Value.object m).get k).getD .null) := rfl

@[simp] theorem modify_null (k : String) (f : Value → Option Value) :
    Value.null.modify k f = (fun w => .object [(k, w)]) <$> f .null := rfl

@[simp] theorem remove_object (m : List (String × Value)) (k : String) :
    (Value.object m).remove k = .object (Map.erase m k) := rfl

@[simp] theorem set_object (m : List (String × Value)) (k : String) (x : Value) :
    (Value.object m).set k x = some (.object (Map.insert m k x)) := rfl

@[simp] theorem index_object (m : List (String × Value)) (k : String) :
    (Value.object m).index k = (Map.get? m k).getD .null := rfl

@[simp] theorem updateField_object (m : List (String × Value)) (k : String) (g : Value → Value) :
    (Value.object m).updateField k g =
      match Map.get? m k with
      | some x => .object (Map.insert m k (g x))
      | none => .object m := rfl

@[simp] theorem isObjectOrNull_object (m : List (String × Value)) :
    (Value.object m).IsObjectOrNull := trivial

@[simp] theorem isNull_iff (v : Value) : v.isNull = true ↔ v = .null := by
  cases v <;> simp [isNull]

/-- `IndexMut` through an object or `null` reaches the field and keeps the rest. -/
theorem modify_eq_some {v : Value} (hv : v.IsObjectOrNull) {k : String}
    {f : Value → Option Value} {w : Value} (hf : f ((v.get k).getD .null) = some w) :
    ∃ m, v.modify k f = some (.object m) ∧ Map.get? m k = some w ∧
      ∀ k', k' ≠ k → Map.get? m k' = v.get k' := by
  cases v with
  | null => exact ⟨[(k, w)], by simpa using hf, by simp [Map.get?_cons], fun k' h => by
      simp [Map.get?_cons, Ne.symm h]⟩
  | object m => exact ⟨Map.insert m k w, by rw [modify_object, hf]; rfl, by simp, fun k' h => by simp [Ne.symm h]⟩
  | _ => exact hv.elim

/-- The fields of an object; `null` has none. -/
def fieldsOf : Value → List (String × Value)
  | .object m => m
  | _ => []

theorem get_eq_fieldsOf (v : Value) (k : String) : v.get k = Map.get? (fieldsOf v) k := by
  cases v <;> rfl

/-- `IndexMut` through an object or `null`, with the two cases made one. -/
theorem modify_eq_fieldsOf {v : Value} (hv : v.IsObjectOrNull) (k : String)
    (f : Value → Option Value) :
    v.modify k f = (fun w => .object (Map.insert (fieldsOf v) k w)) <$>
      f ((Map.get? (fieldsOf v) k).getD .null) := by
  cases v <;> first | rfl | exact hv.elim

theorem set_eq_fieldsOf {v : Value} (hv : v.IsObjectOrNull) (k : String) (x : Value) :
    v.set k x = some (.object (Map.insert (fieldsOf v) k x)) := by
  cases v <;> first | rfl | exact hv.elim

/-- Under any other value `IndexMut` panics. -/
theorem modify_eq_none {v : Value} (hv : ¬ v.IsObjectOrNull) (k : String)
    (f : Value → Option Value) : v.modify k f = none := by
  cases v <;> first | rfl | exact absurd trivial hv

end Value

end StartOs
