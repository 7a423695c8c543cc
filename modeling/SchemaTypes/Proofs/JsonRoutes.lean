import SchemaTypes.Proofs.FlatRecords
import SchemaTypes.Proofs.LoadHistory

/-! # Two ways of writing a value as JSON

A value is written as JSON directly, or first made plain and then written. Writing fails only
on a double that is not finite, and then names the path to the first one met, field by field in
the order the fields are held (`toJson_failure`). Enumeration members are written as their
literals, which are JSON as a reader gives it (`Json.Canonical`).

The two ways agree on every value that is written (`toJson_routes`), except where an instance
holds two fields with one external name. The plain form keeps one map entry per name, with the
last value; the direct way writes every field before keeping the last. So a double that is not
finite in a field that a later field hides makes the direct way fail while the plain way
succeeds (`hidden_field_fails_directly`). Whenever no instance holds two fields with one
external name, the two ways give the same result, failures included.
-/

namespace SchemaTypes

/-! ## Merging entries by key -/

namespace Pairs

variable {α β : Type}

/-- Sets `key` to `value`: in place if the key is present, else at the end. -/
def set (ps : List (String × α)) (key : String) (value : α) : List (String × α) :=
  if ps.any (·.1 == key) then ps.map fun p => if p.1 == key then (key, value) else p
  else ps ++ [(key, value)]

/-- Entries in order, a repeated key keeping its first position and its last value. -/
def collect (ps : List (String × α)) : List (String × α) :=
  ps.foldl (fun acc p => set acc p.1 p.2) []

theorem collect_eq_collect (es : List (String × Value)) : Value.collect es = collect es := rfl

/-- The keys after setting a key: the same keys, or the new one at the end. -/
theorem keys_set (ps : List (String × α)) (key : String) (value : α) :
    (set ps key value).map (·.1) =
      if key ∈ ps.map (·.1) then ps.map (·.1) else ps.map (·.1) ++ [key] := by
  unfold set
  by_cases present : key ∈ ps.map (·.1)
  · have found : ps.any (·.1 == key) = true := by
      obtain ⟨p, member, rfl⟩ := List.mem_map.mp present
      exact List.any_eq_true.mpr ⟨p, member, by simp⟩
    rw [if_pos found, if_pos present, List.map_map]
    refine List.map_congr_left fun p _ => ?_
    by_cases same : p.1 = key <;> simp [same]
  · have absent : ps.any (·.1 == key) = false := by
      simpa [List.any_eq_false] using fun p member same =>
        present (List.mem_map.mpr ⟨p, member, same⟩)
    rw [if_neg (by simp [absent]), if_neg present, List.map_append]
    rfl

theorem nodup_set {ps : List (String × α)} (distinct : (ps.map (·.1)).Nodup) (key : String)
    (value : α) : ((set ps key value).map (·.1)).Nodup := by
  rw [keys_set]
  split
  · exact distinct
  · next absent => exact List.nodup_append.mpr ⟨distinct, List.nodup_singleton key,
      fun a member b same => by rw [List.mem_singleton.mp same]; exact fun e => absent (e ▸ member)⟩

/-- Collected entries have distinct keys. -/
theorem nodup_collect (ps : List (String × α)) : ((collect ps).map (·.1)).Nodup := by
  suffices all : ∀ acc : List (String × α), (acc.map (·.1)).Nodup →
      ((ps.foldl (fun acc p => set acc p.1 p.2) acc).map (·.1)).Nodup from
    all [] List.nodup_nil
  induction ps with
  | nil => exact fun acc distinct => distinct
  | cons p ps ih => exact fun acc distinct => ih _ (nodup_set distinct p.1 p.2)

/-- Collecting keeps every key. -/
theorem mem_keys_collect {ps : List (String × α)} {key : String} :
    key ∈ (collect ps).map (·.1) ↔ key ∈ ps.map (·.1) := by
  suffices all : ∀ acc : List (String × α),
      key ∈ (ps.foldl (fun acc p => set acc p.1 p.2) acc).map (·.1) ↔
        key ∈ acc.map (·.1) ∨ key ∈ ps.map (·.1) from
    (all []).trans (or_iff_right (List.not_mem_nil))
  induction ps with
  | nil => exact fun acc => (or_iff_left (List.not_mem_nil)).symm
  | cons p ps ih =>
    intro acc
    rw [List.foldl_cons, ih, keys_set, List.map_cons, List.mem_cons]
    split
    · next present =>
      -- the key set is already there, so naming it adds nothing
      constructor
      · exact fun found => found.elim .inl (.inr ∘ .inr)
      · rintro (old | rfl | later)
        · exact .inl old
        · exact .inl present
        · exact .inr later
    · rw [List.mem_append, List.mem_singleton]
      tauto

theorem set_fresh {ps : List (String × α)} {key : String} (fresh : key ∉ ps.map (·.1))
    (value : α) : set ps key value = ps ++ [(key, value)] := by
  have absent : ps.any (·.1 == key) = false := by
    simpa [List.any_eq_false] using fun p member same =>
      fresh (List.mem_map.mpr ⟨p, member, same⟩)
  simp [set, absent]

/-- Collecting entries with distinct keys keeps them as they are. -/
theorem collect_of_nodup {ps : List (String × α)} (distinct : (ps.map (·.1)).Nodup) :
    collect ps = ps := by
  suffices all : ∀ acc : List (String × α), ((acc ++ ps).map (·.1)).Nodup →
      ps.foldl (fun acc p => set acc p.1 p.2) acc = acc ++ ps from all [] distinct
  clear distinct
  induction ps with
  | nil => intro acc _; simp
  | cons p ps ih =>
    intro acc keys
    have fresh : p.1 ∉ acc.map (·.1) := by
      rw [List.map_append, List.map_cons] at keys
      exact fun member => (List.nodup_append.mp keys).2.2 _ member _ List.mem_cons_self rfl
    rw [List.foldl_cons, set_fresh fresh, ih (acc ++ [(p.1, p.2)]) (by simpa using keys)]
    simp

/-- Collecting twice is collecting once. -/
theorem collect_collect (ps : List (String × α)) : collect (collect ps) = collect ps :=
  collect_of_nodup (nodup_collect ps)

/-- Setting commutes with changing the values. -/
theorem set_map (g : α → β) (ps : List (String × α)) (key : String) (value : α) :
    (set ps key value).map (fun p => (p.1, g p.2)) =
      set (ps.map fun p => (p.1, g p.2)) key (g value) := by
  unfold set
  have sameAny : (ps.map fun p => (p.1, g p.2)).any (·.1 == key) = ps.any (·.1 == key) := by
    simp [List.any_map, Function.comp_def]
  rw [sameAny]
  split
  · rw [List.map_map, List.map_map]
    refine List.map_congr_left fun p _ => ?_
    by_cases same : p.1 = key <;> simp [same]
  · simp

/-- Collecting commutes with changing the values. -/
theorem collect_map (g : α → β) (ps : List (String × α)) :
    (collect ps).map (fun p => (p.1, g p.2)) = collect (ps.map fun p => (p.1, g p.2)) := by
  suffices all : ∀ acc : List (String × α),
      (ps.foldl (fun acc p => set acc p.1 p.2) acc).map (fun p => (p.1, g p.2)) =
        (ps.map fun p => (p.1, g p.2)).foldl (fun acc p => set acc p.1 p.2)
          (acc.map fun p => (p.1, g p.2)) from all []
  induction ps with
  | nil => intro acc; rfl
  | cons p ps ih =>
    intro acc
    rw [List.foldl_cons, ih, set_map]
    rfl

end Pairs

/-! ## Where writing fails -/

/-- The failure of a computation, if it fails. -/
def failureOf {ε α : Type} : Except ε α → Option ε
  | .error e => some e
  | .ok _ => none

namespace Value

/-- A double found at the end of a path, seen from one step further out. -/
def under (s : PathSegment) (found : List PathSegment × Float) : List PathSegment × Float :=
  (s :: found.1, found.2)

/-- The failure of writing the double `found.2`, found at the path `found.1`. -/
def nonFiniteError (found : List PathSegment × Float) : Error :=
  .serialization ⟨found.1⟩
    ("number " ++ Number.plainText found.2 ++ " is not representable in JSON")

mutual
/-- The path to the first double that is not finite, with that double: items by position,
entries by key and fields by external name, each in the order held. Members are written as
their literals. -/
def firstNonFinite (external : String → String → String) :
    Value → Option (List PathSegment × Float)
  | .number x => if x.isNaN || x.isInf then some ([], x) else none
  | .list xs => firstInItems external 0 xs
  | .map es => firstInEntries external es
  | .object name fs => firstInFields external name fs
  | _ => none
/-- The first double that is not finite among items, the first of them at position `ix`. -/
def firstInItems (external : String → String → String) (ix : Nat) :
    List Value → Option (List PathSegment × Float)
  | [] => none
  | x :: xs =>
    ((firstNonFinite external x).map (under (.index ix))).or (firstInItems external (ix + 1) xs)
/-- The first double that is not finite among the values of a map. -/
def firstInEntries (external : String → String → String) :
    List (String × Value) → Option (List PathSegment × Float)
  | [] => none
  | (k, x) :: es =>
    ((firstNonFinite external x).map (under (.field k))).or (firstInEntries external es)
/-- The first double that is not finite among the fields of an instance of `name`. -/
def firstInFields (external : String → String → String) (name : String) :
    List (String × Value) → Option (List PathSegment × Float)
  | [] => none
  | (k, x) :: fs =>
    ((firstNonFinite external x).map (under (.field (external name k)))).or
      (firstInFields external name fs)
end

variable {f : String → String → String}

theorem failureOf_numberJson (x : Float) :
    failureOf (numberJson x) = (firstNonFinite f (.number x)).map nonFiniteError := by
  unfold numberJson firstNonFinite
  split <;> rfl

theorem failureOf_map {α β : Type} (x : Except Error α) (g : α → β) :
    failureOf (x >>= fun a => .ok (g a)) = failureOf x := by
  cases x <;> rfl

/-- A step that may fail, then a rest that may fail: the failure is the step's, else the rest's. -/
theorem failureOf_step {α β : Type} {x : Except Error α} {rest : α → Except Error β}
    {s : PathSegment} {found : Option (List PathSegment × Float)}
    {later : Option (List PathSegment × Float)}
    (first : failureOf x = found.map nonFiniteError)
    (next : ∀ a, x = .ok a → failureOf (rest a) = later.map nonFiniteError) :
    failureOf ((x.mapError (·.prefixed s)) >>= rest) =
      ((found.map (under s)).or later).map nonFiniteError := by
  cases x with
  | error e =>
    cases found with
    | none => cases first
    | some found =>
      cases first
      rfl
  | ok a =>
    cases found with
    | none => exact next a rfl
    | some found => cases first

theorem jsonItems_failure (xs : List Value) (each : ∀ x ∈ xs, failureOf (toJson f x) =
    (firstNonFinite f x).map nonFiniteError) :
    ∀ ix, failureOf (jsonItems f ix xs) = (firstInItems f ix xs).map nonFiniteError := by
  induction xs with
  | nil => intro ix; rfl
  | cons x xs ih =>
    intro ix
    rw [jsonItems, firstInItems]
    refine failureOf_step (each x List.mem_cons_self) fun j _ => ?_
    rw [failureOf_map]
    exact ih (fun y member => each y (List.mem_cons_of_mem x member)) (ix + 1)

theorem jsonEntries_failure (es : List (String × Value)) (each : ∀ e ∈ es, failureOf (toJson f e.2) =
    (firstNonFinite f e.2).map nonFiniteError) :
    ∀ acc, failureOf (jsonEntries f acc es) = (firstInEntries f es).map nonFiniteError := by
  induction es with
  | nil => intro acc; rfl
  | cons e es ih =>
    intro acc
    obtain ⟨k, x⟩ := e
    rw [jsonEntries, firstInEntries]
    exact failureOf_step (each (k, x) List.mem_cons_self) fun j _ =>
      ih (fun e member => each e (List.mem_cons_of_mem _ member)) _

theorem jsonFields_failure (fs : List (String × Value)) (name : String) (each : ∀ e ∈ fs, failureOf (toJson f e.2) =
    (firstNonFinite f e.2).map nonFiniteError) :
    ∀ acc, failureOf (jsonFields f name acc fs) =
      (firstInFields f name fs).map nonFiniteError := by
  induction fs with
  | nil => intro acc; rfl
  | cons e fs ih =>
    intro acc
    obtain ⟨k, x⟩ := e
    rw [jsonFields, firstInFields]
    exact failureOf_step (each (k, x) List.mem_cons_self) fun j _ =>
      ih (fun e member => each e (List.mem_cons_of_mem _ member)) _

/-- An item is shallower than the list that holds it. -/
theorem depth_lt_of_mem_list {xs : List Value} {x : Value} {n : Nat} (member : x ∈ xs)
    (shallow : (Value.list xs).depth < n + 1) : x.depth < n := by
  have bound := depth_le_of_mem_items member
  simp only [depth] at shallow
  omega

/-- A value of a map is shallower than the map. -/
theorem depth_lt_of_mem_map {es : List (String × Value)} {k : String} {x : Value} {n : Nat}
    (member : (k, x) ∈ es) (shallow : (Value.map es).depth < n + 1) : x.depth < n := by
  have bound := depth_le_of_mem_entries member
  simp only [depth] at shallow
  omega

/-- A field is shallower than the instance that holds it. -/
theorem depth_lt_of_mem_object {t : String} {fs : List (String × Value)} {k : String} {x : Value}
    {n : Nat} (member : (k, x) ∈ fs) (shallow : (Value.object t fs).depth < n + 1) :
    x.depth < n := by
  have bound := depth_le_of_mem_entries member
  simp only [depth] at shallow
  omega

/-- Writing a value fails exactly at the first double that is not finite, naming its path.
By induction on a bound on the depth of the value. -/
theorem toJson_failure : ∀ (n : Nat) (v : Value), v.depth < n →
    failureOf (toJson f v) = (firstNonFinite f v).map nonFiniteError
  | 0, _, shallow => absurd shallow (Nat.not_lt_zero _)
  | n + 1, v, shallow => by
    cases v
    case number x => exact failureOf_numberJson x
    case list xs =>
      have items := jsonItems_failure (f := f) xs (fun x member => toJson_failure n x
        (depth_lt_of_mem_list member shallow)) 0
      simp only [toJson, firstNonFinite]
      rw [failureOf_map]
      exact items
    case map es =>
      have entries := jsonEntries_failure (f := f) es (fun e member => toJson_failure n e.2
        (depth_lt_of_mem_map member shallow)) []
      simp only [toJson, firstNonFinite]
      rw [failureOf_map]
      exact entries
    case object name fs =>
      have fields := jsonFields_failure (f := f) fs name
        (fun e member => toJson_failure n e.2
          (depth_lt_of_mem_object member shallow)) []
      simp only [toJson, firstNonFinite]
      rw [failureOf_map]
      exact fields
    all_goals rfl

/-- `v` holds `w`: `w` is `v`, or held by an item, a value of a map or a field of `v`. -/
inductive Holds : Value → Value → Prop
  | self (v : Value) : Holds v v
  | item {xs : List Value} {x w : Value} : x ∈ xs → Holds x w → Holds (.list xs) w
  | entry {es : List (String × Value)} {k : String} {x w : Value} :
      (k, x) ∈ es → Holds x w → Holds (.map es) w
  | field {t : String} {fs : List (String × Value)} {a : String} {x w : Value} :
      (a, x) ∈ fs → Holds x w → Holds (.object t fs) w

/-! ## Values that are written -/

/-- The JSON of a value, or `null` when it cannot be written. -/
def writtenOr (f : String → String → String) (w : Value) : Json :=
  (toJson f w).toOption.getD .null

/-- A value that is written, as `writtenOr` gives it. -/
def Writes (f : String → String → String) (w : Value) : Prop :=
  toJson f w = .ok (writtenOr f w)

theorem writes_of_ok {w : Value} {j : Json} (written : toJson f w = .ok j) :
    Writes f w ∧ writtenOr f w = j := by
  have same : writtenOr f w = j := by simp [writtenOr, written, Except.toOption]
  exact ⟨by rw [Writes, same, written], same⟩

theorem plainItems_eq : ∀ xs : List Value, plainItems f xs = xs.map (toPlain f)
  | [] => rfl
  | x :: xs => by rw [plainItems, plainItems_eq xs, List.map_cons]

theorem plainEntries_eq :
    ∀ es : List (String × Value), plainEntries f es = es.map fun e => (e.1, toPlain f e.2)
  | [] => rfl
  | (k, x) :: es => by rw [plainEntries, plainEntries_eq es, List.map_cons]

theorem plainFields_eq {name : String} : ∀ fs : List (String × Value),
    plainFields f name fs = fs.map fun e => (f name e.1, toPlain f e.2)
  | [] => rfl
  | (k, x) :: fs => by rw [plainFields, plainFields_eq fs, List.map_cons]

theorem ofJsonItems_eq : ∀ xs : List Json, ofJsonItems xs = xs.map ofJson
  | [] => rfl
  | x :: xs => by rw [ofJsonItems, ofJsonItems_eq xs, List.map_cons]

/-- Items that are all written are written in order. -/
theorem jsonItems_ok {xs : List Value} (each : ∀ x ∈ xs, Writes f x) :
    ∀ ix, jsonItems f ix xs = .ok (xs.map (writtenOr f)) := by
  induction xs with
  | nil => intro ix; rfl
  | cons x xs ih =>
    intro ix
    rw [jsonItems, each x List.mem_cons_self, ih fun y member => each y (List.mem_cons_of_mem x member)]
    rfl

/-- The values of a map that are all written are merged by key, after `acc`. -/
theorem jsonEntries_ok {es : List (String × Value)} (each : ∀ e ∈ es, Writes f e.2) :
    ∀ acc, jsonEntries f acc es =
      .ok ((es.map fun e => (e.1, writtenOr f e.2)).foldl (fun a p => Pairs.set a p.1 p.2) acc) := by
  induction es with
  | nil => intro acc; rfl
  | cons e es ih =>
    intro acc
    obtain ⟨k, x⟩ := e
    rw [jsonEntries, each (k, x) List.mem_cons_self]
    exact ih (fun e member => each e (List.mem_cons_of_mem _ member)) _

/-- Fields that are all written are merged by external name, after `acc`. -/
theorem jsonFields_ok {fs : List (String × Value)} {name : String}
    (each : ∀ e ∈ fs, Writes f e.2) :
    ∀ acc, jsonFields f name acc fs = .ok ((fs.map fun e => (f name e.1, writtenOr f e.2)).foldl
      (fun a p => Pairs.set a p.1 p.2) acc) := by
  induction fs with
  | nil => intro acc; rfl
  | cons e fs ih =>
    intro acc
    obtain ⟨k, x⟩ := e
    rw [jsonFields, each (k, x) List.mem_cons_self]
    exact ih (fun e member => each e (List.mem_cons_of_mem _ member)) _

theorem jsonItems_writes {xs : List Value} {ix : Nat} {js : List Json}
    (written : jsonItems f ix xs = .ok js) : ∀ x ∈ xs, Writes f x := by
  induction xs generalizing ix js with
  | nil => nofun
  | cons x xs ih =>
    rw [jsonItems] at written
    obtain ⟨j, first, rest⟩ := Compiling.except_bind_ok written
    obtain ⟨js', later, -⟩ := Compiling.except_bind_ok rest
    intro y member
    rcases List.mem_cons.mp member with rfl | member
    · exact (writes_of_ok (except_mapError_ok first)).1
    · exact ih later y member

theorem jsonEntries_writes {es : List (String × Value)} {acc js : List (String × Json)}
    (written : jsonEntries f acc es = .ok js) : ∀ e ∈ es, Writes f e.2 := by
  induction es generalizing acc with
  | nil => nofun
  | cons e es ih =>
    obtain ⟨k, x⟩ := e
    rw [jsonEntries] at written
    obtain ⟨j, first, rest⟩ := Compiling.except_bind_ok written
    intro e member
    rcases List.mem_cons.mp member with rfl | member
    · exact (writes_of_ok (except_mapError_ok first)).1
    · exact ih rest e member

theorem jsonFields_writes {fs : List (String × Value)} {name : String}
    {acc js : List (String × Json)} (written : jsonFields f name acc fs = .ok js) :
    ∀ e ∈ fs, Writes f e.2 := by
  induction fs generalizing acc with
  | nil => nofun
  | cons e fs ih =>
    obtain ⟨k, x⟩ := e
    rw [jsonFields] at written
    obtain ⟨j, first, rest⟩ := Compiling.except_bind_ok written
    intro e member
    rcases List.mem_cons.mp member with rfl | member
    · exact (writes_of_ok (except_mapError_ok first)).1
    · exact ih rest e member

/-! ## Members -/

end Value

namespace Json

/-- JSON as a reader gives it: integers of 64 bits, finite doubles, and objects whose keys are
distinct, all the way down. -/
inductive Canonical : Json → Prop
  | null : Canonical .null
  | bool (b : Bool) : Canonical (.bool b)
  | int {n : Int} (fits : Value.fitsInt n = true) : Canonical (.int n)
  | float {x : Float} (finite : (x.isNaN || x.isInf) = false) : Canonical (.float x)
  | str (s : String) : Canonical (.str s)
  | arr {xs : List Json} (items : ∀ x ∈ xs, Canonical x) : Canonical (.arr xs)
  | obj {ms : List (String × Json)} (keys : (ms.map (·.1)).Nodup)
      (values : ∀ m ∈ ms, Canonical m.2) : Canonical (.obj ms)

theorem liftedItems_eq : ∀ xs : List Json, liftedItems xs = xs.map liftedIntegers
  | [] => rfl
  | x :: xs => by rw [liftedItems, liftedItems_eq xs, List.map_cons]

theorem liftedMembers_eq :
    ∀ ms : List (String × Json), liftedMembers ms = ms.map fun m => (m.1, liftedIntegers m.2)
  | [] => rfl
  | (k, x) :: ms => by rw [liftedMembers, liftedMembers_eq ms, List.map_cons]

/-- Canonical JSON comes back as it is. -/
theorem liftedIntegers_canonical {j : Json} (canonical : j.Canonical) : j.liftedIntegers = j := by
  induction canonical with
  | int fits => simp [liftedIntegers, fits]
  | arr _ items =>
    rw [liftedIntegers, liftedItems_eq, List.map_congr_left items, List.map_id']
  | obj _ _ values =>
    rw [liftedIntegers, liftedMembers_eq,
      List.map_congr_left fun m member => by rw [values m member], List.map_id']
  | _ => rfl

end Json

namespace Value

variable {f : String → String → String}

/-- Canonical JSON, lifted to a value, is written back as it was. -/
theorem toJson_ofJson {j : Json} (canonical : j.Canonical) : toJson f (ofJson j) = .ok j := by
  induction canonical with
  | int fits => simp [ofJson, fits, toJson]
  | float finite => simp only [ofJson, toJson, numberJson, finite, Bool.false_eq_true, ↓reduceIte]
  | @arr xs _ items =>
    have each : ∀ x ∈ ofJsonItems xs, Writes f x := by
      intro x member
      rw [ofJsonItems_eq] at member
      obtain ⟨y, inItems, rfl⟩ := List.mem_map.mp member
      exact (writes_of_ok (items y inItems)).1
    have same : xs.map (writtenOr f ∘ ofJson) = xs := by
      conv_rhs => rw [← List.map_id xs]
      exact List.map_congr_left fun x member => (writes_of_ok (items x member)).2
    simp only [ofJson, toJson]
    rw [jsonItems_ok each 0, ofJsonItems_eq, List.map_map, same]
    rfl
  | @obj ms keys _ values =>
    have each : ∀ e ∈ ofJsonMembers ms, Writes f e.2 := by
      intro e member
      rw [ofJsonMembers_eq] at member
      obtain ⟨m, inMembers, rfl⟩ := List.mem_map.mp member
      exact (writes_of_ok (values m inMembers)).1
    -- the members are written one by one, and their keys are distinct
    have same : (ofJsonMembers ms).map (fun e => (e.1, writtenOr f e.2)) = ms := by
      rw [ofJsonMembers_eq, List.map_map]
      conv_rhs => rw [← List.map_id ms]
      exact List.map_congr_left fun m member => by
        simp [(writes_of_ok (values m member)).2]
    simp only [ofJson, toJson]
    rw [jsonEntries_ok each [], same]
    show (Except.ok (Json.obj (Pairs.collect ms)) : Except Error Json) = _
    rw [Pairs.collect_of_nodup keys]
  | _ => rfl

/-- A member is written as the JSON of its plain form when its literal is canonical. -/
theorem toJson_member {m : EnumMember} (canonical : ∀ j, m.literal = some j → j.Canonical) :
    toJson f m.toPlain = .ok m.toJson := by
  unfold EnumMember.toPlain EnumMember.toJson
  cases literal : m.literal with
  | some j =>
    rw [toJson_ofJson (canonical j literal)]
    simp only [Json.liftedIntegers_canonical (canonical j literal)]
  | none =>
    -- the map form: its `Id`, then its `Description`
    simp only [EnumMember.toEntries]
    cases m.description <;> rfl

/-! ## The plain way agrees -/

theorem jsonItems_congr {g : Value → Value} {xs : List Value}
    (same : ∀ x ∈ xs, toJson f (g x) = toJson f x) :
    ∀ ix, jsonItems f ix (xs.map g) = jsonItems f ix xs := by
  induction xs with
  | nil => intro ix; rfl
  | cons x xs ih =>
    intro ix
    rw [List.map_cons, jsonItems, jsonItems, same x List.mem_cons_self,
      ih fun y member => same y (List.mem_cons_of_mem x member)]

theorem jsonEntries_congr {g : Value → Value} {es : List (String × Value)}
    (same : ∀ e ∈ es, toJson f (g e.2) = toJson f e.2) :
    ∀ acc, jsonEntries f acc (es.map fun e => (e.1, g e.2)) = jsonEntries f acc es := by
  induction es with
  | nil => intro acc; rfl
  | cons e es ih =>
    intro acc
    obtain ⟨k, x⟩ := e
    rw [List.map_cons, jsonEntries, jsonEntries, same (k, x) List.mem_cons_self]
    congr 1
    funext j
    exact ih (fun e member => same e (List.mem_cons_of_mem _ member)) _

/-- The map of an instance's plain fields is written as the instance's fields are. -/
theorem jsonEntries_fields {g : Value → Value} {fs : List (String × Value)} {name : String}
    (same : ∀ e ∈ fs, toJson f (g e.2) = toJson f e.2) :
    ∀ acc, jsonEntries f acc (fs.map fun e => (f name e.1, g e.2)) = jsonFields f name acc fs := by
  induction fs with
  | nil => intro acc; rfl
  | cons e fs ih =>
    intro acc
    obtain ⟨k, x⟩ := e
    rw [List.map_cons, jsonEntries, jsonFields, same (k, x) List.mem_cons_self]
    congr 1
    funext j
    exact ih (fun e member => same e (List.mem_cons_of_mem _ member)) _

theorem Holds.trans {u v w : Value} (outer : Holds u v) (inner : Holds v w) : Holds u w := by
  induction outer with
  | self => exact inner
  | item member _ ih => exact .item member (ih inner)
  | entry member _ ih => exact .entry member (ih inner)
  | field member _ ih => exact .field member (ih inner)

/-- The members a value holds have canonical literals. -/
def CanonicalMembers (v : Value) : Prop :=
  ∀ m, Holds v (.enum m) → ∀ j, m.literal = some j → j.Canonical

/-- The instances a value holds have fields of distinct external names. -/
def DistinctFields (f : String → String → String) (v : Value) : Prop :=
  ∀ t fs, Holds v (.object t fs) → (fs.map fun e => f t e.1).Nodup

theorem CanonicalMembers.of_holds {v x : Value} (canonical : CanonicalMembers v)
    (held : Holds v x) : CanonicalMembers x :=
  fun m inner => canonical m (held.trans inner)

theorem DistinctFields.of_holds {v x : Value} (distinct : DistinctFields f v) (held : Holds v x) :
    DistinctFields f x :=
  fun t fs inner => distinct t fs (held.trans inner)

/-- Writing the plain form of a value gives what writing the value gives, when that succeeds.
By induction on a bound on the depth of the value. -/
theorem toJson_toPlain_of_ok : ∀ (n : Nat) (v : Value), v.depth < n → CanonicalMembers v →
    ∀ j, toJson f v = .ok j → toJson f (toPlain f v) = .ok j
  | 0, _, shallow, _ => absurd shallow (Nat.not_lt_zero _)
  | n + 1, v, shallow, canonical => by
    -- a part that is written has a plain form written the same way
    have plainWrites : ∀ x, Holds v x → x.depth < n → Writes f x →
        Writes f (toPlain f x) ∧ writtenOr f (toPlain f x) = writtenOr f x :=
      fun x held deep written => writes_of_ok
        (toJson_toPlain_of_ok n x deep (canonical.of_holds held) _ written)
    intro j written
    cases v
    case list xs =>
      obtain ⟨js, items, made⟩ := Compiling.except_bind_ok written
      cases made
      have each := jsonItems_writes items
      have parts : ∀ x ∈ xs, Writes f (toPlain f x) ∧ writtenOr f (toPlain f x) = writtenOr f x :=
        fun x member => plainWrites x (.item member (.self x))
          (depth_lt_of_mem_list member shallow)
          (each x member)
      rw [jsonItems_ok each] at items
      cases items
      have plainJson : (xs.map (toPlain f)).map (writtenOr f) = xs.map (writtenOr f) := by
        rw [List.map_map]
        exact List.map_congr_left fun x member => (parts x member).2
      simp only [toPlain, toJson]
      rw [plainItems_eq, jsonItems_ok (fun x member => by
          obtain ⟨y, inItems, rfl⟩ := List.mem_map.mp member
          exact (parts y inItems).1), plainJson]
      rfl
    case map es =>
      obtain ⟨js, entries, made⟩ := Compiling.except_bind_ok written
      cases made
      have each := jsonEntries_writes entries
      have parts : ∀ e ∈ es,
          Writes f (toPlain f e.2) ∧ writtenOr f (toPlain f e.2) = writtenOr f e.2 :=
        fun e member => plainWrites e.2 (.entry member (.self e.2))
          (depth_lt_of_mem_map member shallow)
          (each e member)
      rw [jsonEntries_ok each] at entries
      cases entries
      have plainJson : ((es.map fun e => (e.1, toPlain f e.2)).map
          fun e => (e.1, writtenOr f e.2)) = es.map fun e => (e.1, writtenOr f e.2) := by
        rw [List.map_map]
        exact List.map_congr_left fun e member => by simp [(parts e member).2]
      simp only [toPlain, toJson]
      rw [plainEntries_eq, jsonEntries_ok (fun e member => by
          obtain ⟨y, inEntries, rfl⟩ := List.mem_map.mp member
          exact (parts y inEntries).1), plainJson]
      rfl
    case object name fs =>
      obtain ⟨js, fields, made⟩ := Compiling.except_bind_ok written
      cases made
      have each := jsonFields_writes fields
      have parts : ∀ e ∈ fs,
          Writes f (toPlain f e.2) ∧ writtenOr f (toPlain f e.2) = writtenOr f e.2 :=
        fun e member => plainWrites e.2 (.field member (.self e.2))
          (depth_lt_of_mem_object member shallow)
          (each e member)
      rw [jsonFields_ok each] at fields
      cases fields
      -- the plain form keeps one entry per external name, with the last value: merging the
      -- written fields by name gives the same
      have kept : ∀ e ∈ collect (plainFields f name fs), Writes f e.2 := by
        intro e member
        obtain ⟨a, x⟩ := e
        rw [plainFields_eq] at member
        obtain ⟨y, inFields, same⟩ := List.mem_map.mp (mem_collect member)
        cases same
        exact (parts y inFields).1
      simp only [toPlain, toJson]
      rw [jsonEntries_ok kept, Pairs.collect_eq_collect]
      show (Except.ok (Json.obj (Pairs.collect ((Pairs.collect (plainFields f name fs)).map
        fun e => (e.1, writtenOr f e.2)))) : Except Error Json) = _
      have plainJson : ((fs.map fun e => (f name e.1, toPlain f e.2)).map
          fun e => (e.1, writtenOr f e.2)) = fs.map fun e => (f name e.1, writtenOr f e.2) := by
        rw [List.map_map]
        exact List.map_congr_left fun e member => by simp [(parts e member).2]
      rw [Pairs.collect_map, Pairs.collect_collect, plainFields_eq, plainJson]
      rfl
    case enum m =>
      cases written
      exact toJson_member (canonical m (.self _))
    all_goals exact written

/-- Where no instance holds two fields with one external name, writing the plain form of a
value gives what writing the value gives, failures included. By induction on a bound on the
depth of the value. -/
theorem toJson_toPlain_eq : ∀ (n : Nat) (v : Value), v.depth < n → CanonicalMembers v →
    DistinctFields f v → toJson f (toPlain f v) = toJson f v
  | 0, _, shallow, _, _ => absurd shallow (Nat.not_lt_zero _)
  | n + 1, v, shallow, canonical, distinct => by
    have parts : ∀ x, Holds v x → x.depth < n → toJson f (toPlain f x) = toJson f x :=
      fun x held deep =>
        toJson_toPlain_eq n x deep (canonical.of_holds held) (distinct.of_holds held)
    cases v
    case list xs =>
      simp only [toPlain, toJson]
      rw [plainItems_eq, jsonItems_congr fun x member => parts x (.item member (.self x))
        (depth_lt_of_mem_list member shallow)]
    case map es =>
      simp only [toPlain, toJson]
      rw [plainEntries_eq, jsonEntries_congr fun e member => parts e.2 (.entry member (.self e.2))
        (depth_lt_of_mem_map member shallow)]
    case object name fs =>
      -- distinct external names: the plain form keeps every field
      have keys : ((plainFields f name fs).map (·.1)).Nodup := by
        rw [plainFields_eq, List.map_map]
        exact distinct name fs (.self _)
      simp only [toPlain, toJson]
      rw [Pairs.collect_eq_collect, Pairs.collect_of_nodup keys, plainFields_eq,
        jsonEntries_fields fun e member => parts e.2 (.field member (.self e.2))
          (depth_lt_of_mem_object member shallow)]
    case enum m => exact toJson_member (canonical m (.self _))
    all_goals rfl

/-! ## The two ways -/

/-- Writing a value as JSON fails exactly at its first double that is not finite, naming the
path to it; where it succeeds, writing its plain form gives the same JSON; and where no instance
it holds has two fields with one external name, the two ways agree, failures included. -/
theorem toJson_routes (f : String → String → String) (v : Value)
    (canonical : CanonicalMembers v) :
    failureOf (toJson f v) = (firstNonFinite f v).map nonFiniteError ∧
      (∀ j, toJson f v = .ok j → toJson f (toPlain f v) = .ok j) ∧
      (DistinctFields f v → toJson f (toPlain f v) = toJson f v) :=
  ⟨toJson_failure _ v (Nat.lt_succ_self _),
    toJson_toPlain_of_ok _ v (Nat.lt_succ_self _) canonical,
    fun distinct => toJson_toPlain_eq _ v (Nat.lt_succ_self _) canonical distinct⟩

/-- External names that are the attribute names. -/
def sameNames (_ : String) (field : String) : String := field

/-- A pot of paint: an instance holding a colour and a size. -/
def paintPot : Value :=
  .object "Pot" [("colour", .enum ⟨"Colour", "RED", "red", none, some (.str "red")⟩), ("size", .int 3)]

/-- The two ways of writing a pot of paint, whose colour's literal is a string. -/
theorem paintPot_routes :
    CanonicalMembers paintPot ∧
      (failureOf (toJson sameNames paintPot) = (firstNonFinite sameNames paintPot).map nonFiniteError ∧
        (∀ j, toJson sameNames paintPot = .ok j →
          toJson sameNames (toPlain sameNames paintPot) = .ok j) ∧
        (DistinctFields sameNames paintPot →
          toJson sameNames (toPlain sameNames paintPot) = toJson sameNames paintPot)) := by
  -- the only member the pot holds is its colour, whose literal is a string
  have members : CanonicalMembers paintPot := by
    intro m held j literal
    cases held with
    | field member inner =>
      simp only [List.mem_cons, List.not_mem_nil, or_false, Prod.mk.injEq] at member
      rcases member with ⟨-, rfl⟩ | ⟨-, rfl⟩
      · cases inner
        cases literal
        exact .str "red"
      · cases inner
  exact ⟨members, toJson_routes sameNames paintPot members⟩

/-- The external names of a type whose attribute `mass` is written as `Mass`. -/
def massNames (_ : String) (field : String) : String :=
  if field = "mass" then "Mass" else field

/-- An instance whose field `mass` holds `x` and is hidden by its field `Mass`. -/
def massInstance (x : Float) : Value := .object "T" [("mass", .number x), ("Mass", .int 1)]

/-- The plain form keeps only the later of two fields with one external name, so it is written
whatever the hidden field holds; written directly, the instance fails when the hidden double is
not finite. -/
theorem hidden_field_fails_directly (x : Float) :
    toJson massNames (toPlain massNames (massInstance x)) = .ok (.obj [("Mass", .int 1)]) ∧
      (toJson massNames (massInstance x) = .ok (.obj [("Mass", .int 1)]) ↔
        (x.isNaN || x.isInf) = false) := by
  constructor
  · rfl
  · cases finite : (x.isNaN || x.isInf)
    · simp only [massInstance, toJson, jsonFields, numberJson, finite, massNames]
      simp
      rfl
    · simp only [massInstance, toJson, jsonFields, numberJson, finite, massNames]
      simp
      intro same
      cases same

end Value

end SchemaTypes
