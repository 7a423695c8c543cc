import SchemaTypes.Proofs.Mentions

/-! # Handles that agree with their casters

The compiler produces a handle and a caster side by side for every type. `Agree h k` says
that they describe the same type, constructor by constructor: a native caster beside the
same native handle, a list caster beside a list handle of an agreeing item, an enumeration or
composite caster beside the handle of the same name, a polymorph beside a union in which
every branch caster agrees with some member. Two pairs stand out: the identity caster goes
with `Any` and with a plain union, whose members are never cast to, and an optional handle
keeps the caster of what it makes optional.

`Fits r v h k` is what "the value `v` has the type `h`" means for a value produced by the
caster `k`: it conforms to `h`, except that a union paired with the identity caster is read
as `Any`, an optional handle also admits `null`, a list is read item by item, a polymorph's
union is read through the caster of one of its branches, and an instance that a polymorph
keeps as it is, because its type inherits from a branch target, fits the polymorph.
-/

namespace SchemaTypes

mutual
/-- A handle and a caster describe the same type. -/
inductive Agree : TypeHandle → Caster → Prop
  | any : Agree .any .identity
  | plain (members : List TypeHandle) : Agree (.union members) .identity
  | native (t : NativeType) : Agree (.native t) (.native t)
  | list {h : TypeHandle} {k : Caster} : Agree h k → Agree (.list h) (.list k)
  | optional {h : TypeHandle} {k : Caster} : Agree h k → Agree (.optional h) k
  | enum (name : String) : Agree (.enum name) (.enum name)
  | composite (name : String) : Agree (.composite name) (.composite name)
  | polymorph {members : List TypeHandle} {c : Caster} : c.isPolymorph = true →
      (∀ k ∈ c.branchCasters, AgreeAmong members k) → Agree (.union members) c
/-- A caster agrees with one of several handles. -/
inductive AgreeAmong : List TypeHandle → Caster → Prop
  | head {h : TypeHandle} {hs : List TypeHandle} {k : Caster} : Agree h k → AgreeAmong (h :: hs) k
  | tail {h : TypeHandle} {hs : List TypeHandle} {k : Caster} :
      AgreeAmong hs k → AgreeAmong (h :: hs) k
end

theorem agreeAmong_iff {k : Caster} :
    ∀ {hs : List TypeHandle}, AgreeAmong hs k ↔ ∃ h ∈ hs, Agree h k
  | [] => by
    constructor
    · intro among; cases among
    · simp
  | h :: hs => by
    constructor
    · intro among
      cases among with
      | head agree => exact ⟨h, by simp, agree⟩
      | tail rest =>
        obtain ⟨h', member, agree⟩ := agreeAmong_iff.mp rest
        exact ⟨h', by simp [member], agree⟩
    · rintro ⟨h', member, agree⟩
      rcases List.mem_cons.mp member with rfl | later
      · exact .head agree
      · exact .tail (agreeAmong_iff.mpr ⟨h', later, agree⟩)

/-- Making a handle optional keeps it in agreement with its caster. -/
theorem Agree.orNull {h : TypeHandle} {k : Caster} (agree : Agree h k) : Agree h.orNull k := by
  cases h with
  | optional inner => exact agree
  | any => exact agree
  | _ => exact .optional agree

/-- A polymorph built from branches, each agreeing with a member of the union. -/
theorem Agree.ofBranches {members : List TypeHandle} {c : Caster} (polymorph : c.isPolymorph = true)
    (branches : ∀ k ∈ c.branchCasters, ∃ h ∈ members, Agree h k) : Agree (.union members) c :=
  .polymorph polymorph fun k member => agreeAmong_iff.mpr (branches k member)

mutual
/-- Handles that are the same are equal. -/
theorem TypeHandle.eq_of_same : ∀ (a b : TypeHandle), a.same b = true → a = b
  | .any, b, same => by cases b <;> simp_all [TypeHandle.same]
  | .native x, b, same => by cases b <;> simp_all [TypeHandle.same]
  | .list x, b, same => by
    cases b with
    | list y => exact congrArg TypeHandle.list (TypeHandle.eq_of_same x y same)
    | _ => simp [TypeHandle.same] at same
  | .union xs, b, same => by
    cases b with
    | union ys => exact congrArg TypeHandle.union (TypeHandle.eq_of_sameAll xs ys same)
    | _ => simp [TypeHandle.same] at same
  | .optional x, b, same => by
    cases b with
    | optional y => exact congrArg TypeHandle.optional (TypeHandle.eq_of_same x y same)
    | _ => simp [TypeHandle.same] at same
  | .enum x, b, same => by cases b <;> simp_all [TypeHandle.same]
  | .composite x, b, same => by cases b <;> simp_all [TypeHandle.same]
/-- Lists of handles that are the same member by member are equal. -/
theorem TypeHandle.eq_of_sameAll : ∀ (xs ys : List TypeHandle), TypeHandle.sameAll xs ys = true → xs = ys
  | [], [], _ => rfl
  | x :: xs, y :: ys, same => by
    simp only [TypeHandle.sameAll, Bool.and_eq_true] at same
    rw [TypeHandle.eq_of_same x y same.1, TypeHandle.eq_of_sameAll xs ys same.2]
  | [], _ :: _, same | _ :: _, [], same => by simp [TypeHandle.sameAll] at same
end

/-- Every property, the catch-all and the parameters of the initializer agree. -/
def Composite.Agrees (c : Composite) : Prop :=
  (∀ p ∈ c.properties, Agree p.constraint p.caster) ∧
  (∀ ca, c.catchAll = some ca → Agree ca.constraint ca.caster) ∧
  (∀ p ∈ c.initializer.signature.params, Agree p.constraint p.caster) ∧
  (∀ ca, c.initializer.signature.catchAll = some ca → Agree ca.constraint ca.caster)

/-- A value has a type, read as the caster that produced the value reads it. -/
inductive Fits (r : Registry) : Value → TypeHandle → Caster → Prop
  | conforms {v : Value} {h : TypeHandle} {k : Caster} : r.conforms v h = true → Fits r v h k
  | plain {v : Value} {members : List TypeHandle} : Fits r v (.union members) .identity
  | optional {v : Value} {h : TypeHandle} {k : Caster} : Fits r v h k → Fits r v (.optional h) k
  | list {items : List Value} {h : TypeHandle} {k : Caster} :
      (∀ x ∈ items, Fits r x h k) → Fits r (.list items) (.list h) (.list k)
  | branch {v : Value} {members : List TypeHandle} {c k : Caster} {h : TypeHandle} :
      k ∈ c.branchCasters → h ∈ members → Fits r v h k → Fits r v (.union members) c
  | kept {typeName : String} {fields : List (String × Value)} {members : List TypeHandle}
      {c : Caster} : c.isPolymorph = true → c.targets.any (r.isSubtype typeName) = true →
      Fits r (.object typeName fields) (.union members) c

end SchemaTypes
