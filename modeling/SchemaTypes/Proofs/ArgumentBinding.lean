import Mathlib.Data.List.Find
import SchemaTypes.Proofs.FlatRecords

/-! # Binding arguments to a constructor

A constructor takes positional values for its first parameters, in order, and keyword values
by parameter name; a keyword that names no parameter goes to the catch-all. Binding refuses,
in this order: more positional values than parameters; then, scanning the keywords in order,
the first one that names a parameter a positional value fills, or names no parameter when
there is no catch-all; then the required parameters that receive no value, all of them named,
at the field of the first. A parameter that receives nothing takes its default.

`Constructor.bindSpec` states these rules over the arguments as they are given. Binding itself
keeps a running table of the values given so far, so a keyword could in principle collide with
an earlier keyword as well; with distinct keywords it cannot, and binding follows the rules
(`Constructor.bind_eq_bindSpec`). What a parameter receives is then all that matters: two
calls that give every parameter the same value, and the same extra keywords, store the same
fields, whichever of the values came positionally.
-/

namespace SchemaTypes

/-- The value the parameter `p` at position `ix` receives: the positional value there, else
the keyword that names it. -/
def Arguments.received (args : Arguments) (ix : Nat) (p : Property) : Option Value :=
  args.positional[ix]?.or (Value.lookup args.keyword p.name)

/-- The value of a default; none for a required property. -/
def PropertyDefault.value? : PropertyDefault → Option Value
  | .required => none
  | .value v => some v

/-- The value the parameter `p` at position `ix` is bound to: the one it receives, else its
default; none for a required parameter that receives nothing. -/
def Arguments.boundValue (args : Arguments) (ix : Nat) (p : Property) : Option Value :=
  (args.received ix p).or p.default.value?

namespace Constructor

variable (c : Constructor) (args : Arguments)

/-- Whether a name is the name of a parameter. -/
def declares (name : String) : Bool := (c.param? name).isSome

/-- The names of the parameters that the positional values fill. -/
def positionalNames : List String := (c.params.take args.positional.length).map (·.name)

/-- Whether binding refuses a keyword: it names a parameter that a positional value fills, or
it names no parameter and nothing takes extra keywords. -/
def refuses (keyword : String × Value) : Bool :=
  if c.declares keyword.1 then (c.positionalNames args).contains keyword.1 else !c.acceptsExtra

/-- The failure for a refused keyword. -/
def keywordRefusal (name : String) : Error :=
  if c.declares name then
    Error.typeAt (c.owner ++ "() got multiple values for argument '" ++ name ++ "'")
  else Error.typeAt (c.owner ++ "() got an unexpected keyword argument '" ++ name ++ "'")

/-- The parameters that are bound, each under its name with its value, in declaration
order. -/
def boundParams : List (String × Value) :=
  c.params.zipIdx.filterMap fun q => (args.boundValue q.2 q.1).map (q.1.name, ·)

/-- The required parameters that receive nothing, in declaration order. -/
def missingParams : List Property :=
  (c.params.zipIdx.filter fun q => (args.boundValue q.2 q.1).isNone).map (·.1)

/-- The keywords that name no parameter, in the order given. -/
def undeclared : List (String × Value) := args.keyword.filter fun kw => !c.declares kw.1

/-- Binding by the rules of keyword arguments, checked in order. -/
def bindSpec : Except Error Bound :=
  if c.params.length < args.positional.length then
    .error (Error.typeAt (c.owner ++ "() takes " ++ toString c.params.length ++
      " positional arguments but " ++ toString args.positional.length ++ " were given"))
  else
    match args.keyword.find? (c.refuses args) with
    | some (name, _) => .error (c.keywordRefusal name)
    | none =>
      let missing := c.missingParams args
      match missing with
      | [] => .ok ⟨c.boundParams args, c.undeclared args⟩
      | first :: _ =>
        .error ((Error.typeAt (c.owner ++ "() missing " ++ toString missing.length ++
          " required argument" ++ (if missing.length = 1 then "" else "s") ++ ": " ++
          ", ".intercalate (missing.map fun p => "'" ++ p.name ++ "'"))).atField
          first.externalName)

/-! ## Sorting the keywords -/

/-- Sorting keywords with distinct names, none of them an extra already, refuses the first
keyword that names a parameter given before or names none while there is no catch-all, and
otherwise keeps the keywords in their order, parameters apart from extras. -/
theorem sortKeywords_eq {given extra keywords : List (String × Value)}
    (distinct : (keywords.map (·.1)).Nodup) (fresh : ∀ kw ∈ keywords, kw.1 ∉ extra.map (·.1)) :
    c.sortKeywords given extra keywords =
      match keywords.find? (fun kw =>
          if c.declares kw.1 then given.any (·.1 == kw.1) else !c.acceptsExtra) with
      | some (name, _) => .error (c.keywordRefusal name)
      | none => .ok (given ++ keywords.filter (c.declares ·.1),
          extra ++ keywords.filter (!c.declares ·.1)) := by
  induction keywords generalizing given extra with
  | nil => simp [sortKeywords]
  | cons kw rest inductionHypothesis =>
    obtain ⟨name, v⟩ := kw
    have later : ∀ kw ∈ rest, (name == kw.1) = false := by
      intro kw member
      have other : kw.1 ∈ rest.map (·.1) := List.mem_map_of_mem member
      simpa using fun same : name = kw.1 => (List.nodup_cons.mp distinct).1 (same ▸ other)
    have restDistinct := (List.nodup_cons.mp distinct).2
    unfold sortKeywords
    by_cases named : c.declares name = true
    · have isParam : (c.param? name).isSome = true := named
      by_cases twice : given.any (·.1 == name) = true
      · simp [named, twice, isParam, keywordRefusal]
      · -- the keyword joins the given ones; no later keyword has its name
        have same : ∀ kw ∈ rest,
            (if c.declares kw.1 then (given ++ [(name, v)]).any (·.1 == kw.1)
              else !c.acceptsExtra) =
            (if c.declares kw.1 then given.any (·.1 == kw.1) else !c.acceptsExtra) := by
          intro kw member
          simp [List.any_append, later kw member]
        rw [if_pos isParam, if_neg twice,
          inductionHypothesis restDistinct fun kw member => fresh kw (List.mem_cons_of_mem _ member),
          List.find?_congr same]
        simp [named, twice]
    · have notParam : (c.param? name).isSome = false := Bool.eq_false_iff.mpr named
      by_cases extras : c.acceptsExtra = true
      · have newExtra : name ∉ extra.map (·.1) := fresh (name, v) List.mem_cons_self
        have restFresh : ∀ kw ∈ rest, kw.1 ∉ (extra ++ [(name, v)]).map (·.1) := by
          intro kw member
          have other : kw.1 ≠ name := by
            intro same
            have differs := later kw member
            simp [same] at differs
          simpa [other] using fresh kw (List.mem_cons_of_mem _ member)
        rw [if_neg (by simp [notParam]), if_pos extras, Value.setEntry_fresh newExtra,
          inductionHypothesis restDistinct restFresh]
        simp [named, extras]
      · simp [named, extras, notParam, keywordRefusal]

/-! ## The values given positionally

Binding pairs each positional value with the name of the parameter it fills. The lemmas below
take the pairing function as it is given, so that they apply to binding as it is written. -/

theorem Value.lookup_append (xs ys : List (String × Value)) (key : String) :
    Value.lookup (xs ++ ys) key = (Value.lookup xs key).or (Value.lookup ys key) := by
  unfold Value.lookup
  rw [List.find?_append]
  cases xs.find? (·.1 == key) <;> rfl

/-- Keeping only the keywords that name parameters finds a parameter's keyword as before. -/
theorem lookup_declared {name : String} (named : c.declares name = true)
    (keywords : List (String × Value)) :
    Value.lookup (keywords.filter (c.declares ·.1)) name = Value.lookup keywords name := by
  unfold Value.lookup
  rw [List.find?_filter]
  congr 1
  refine List.find?_congr fun kw _ => ?_
  by_cases hit : kw.1 = name
  · simp [hit, named]
  · simp [hit]

section Positional

variable {g : Property × Value → String × Value} (pairs : ∀ p v, g (p, v) = (p.name, v))
include pairs

theorem positional_keys :
    ((c.params.zip args.positional).map g).map (·.1) = c.positionalNames args := by
  unfold positionalNames
  generalize c.params = ps
  generalize args.positional = vs
  induction ps generalizing vs with
  | nil => simp
  | cons p ps inductionHypothesis =>
    cases vs with
    | nil => simp
    | cons v vs => simpa [pairs] using inductionHypothesis vs

/-- A parameter's positional value is found under its name, parameter names being
distinct. -/
theorem lookup_positional (distinct : (c.params.map (·.name)).Nodup) {p : Property}
    {ix : Nat} (at_ix : c.params[ix]? = some p) :
    Value.lookup ((c.params.zip args.positional).map g) p.name = args.positional[ix]? := by
  generalize c.params = ps at distinct at_ix
  generalize args.positional = vs
  induction ps generalizing vs ix with
  | nil => simp at at_ix
  | cons q ps inductionHypothesis =>
    cases vs with
    | nil => simp [Value.lookup]
    | cons v vs =>
      cases ix with
      | zero =>
        cases at_ix
        simp [Value.lookup, pairs]
      | succ ix =>
        have other : (q.name == p.name) = false := by
          have member : p.name ∈ ps.map (·.name) :=
            List.mem_map_of_mem (List.mem_of_getElem? at_ix)
          simpa using fun same : q.name = p.name =>
            (List.nodup_cons.mp distinct).1 (by simpa [same] using member)
        have rest := inductionHypothesis (List.nodup_cons.mp distinct).2 (by simpa using at_ix) vs
        simpa [Value.lookup, pairs, other] using rest

/-- The keywords that binding refuses, with the positional values given. -/
theorem refuses_eq :
    (fun kw : String × Value => if c.declares kw.1 then
        ((c.params.zip args.positional).map g).any (·.1 == kw.1) else !c.acceptsExtra) =
      c.refuses args := by
  funext kw
  simp only [refuses, ← positional_keys c args pairs, List.contains_eq_any_beq, List.any_map]
  congr 2
  funext e
  exact Bool.eq_iff_iff.mpr (by simp only [Function.comp_apply, beq_iff_eq]; exact eq_comm)

/-- After the keywords are sorted, each parameter finds the value it receives. -/
theorem lookup_given (distinct : (c.params.map (·.name)).Nodup) {q : Property × Nat}
    (at_ix : q ∈ c.params.zipIdx) :
    Value.lookup ((c.params.zip args.positional).map g ++
        args.keyword.filter (c.declares ·.1)) q.1.name =
      args.received q.2 q.1 := by
  have position : c.params[q.2]? = some q.1 := List.mem_zipIdx_iff_getElem?.mp at_ix
  have named : c.declares q.1.name = true := by
    have member : q.1 ∈ c.params := List.mem_of_getElem? position
    exact List.find?_isSome.mpr ⟨q.1, member, by simp⟩
  rw [Value.lookup_append, lookup_positional c args pairs distinct position,
    lookup_declared c named]
  rfl

end Positional

/-- Binding's values of the parameters, taken in declaration order, are the bound values of
the rules when each parameter's value is computed from what it receives. -/
theorem filterMap_params {F : Property → Option (String × Value)}
    (computes : ∀ q ∈ c.params.zipIdx, F q.1 = (args.boundValue q.2 q.1).map (q.1.name, ·)) :
    c.params.filterMap F = c.boundParams args := by
  rw [← List.zipIdx_map_fst 0 c.params, List.filterMap_map]
  exact List.filterMap_congr computes

/-- Binding's missing parameters are those of the rules when a parameter is missing exactly
when it is bound to nothing. -/
theorem filter_params {G : Property → Bool}
    (computes : ∀ q ∈ c.params.zipIdx, G q.1 = (args.boundValue q.2 q.1).isNone) :
    c.params.filter G = c.missingParams args := by
  unfold missingParams
  conv_lhs => rw [← List.zipIdx_map_fst 0 c.params, List.filter_map]
  congr 1
  exact List.filter_congr computes

/-! ## Binding follows the rules -/

/-- With distinct parameter names and distinct keywords, binding is `bindSpec`: it refuses
too many positional values, then the first refused keyword, then missing required
parameters, and otherwise binds every parameter to what it receives or its default and
passes the other keywords on in their order. -/
theorem bind_eq_bindSpec (distinct : (c.params.map (·.name)).Nodup)
    (distinctKeywords : (args.keyword.map (·.1)).Nodup) :
    c.bind args = c.bindSpec args := by
  unfold bind bindSpec
  by_cases tooMany : c.params.length < args.positional.length
  · rw [if_pos tooMany, if_pos tooMany]
    rfl
  rw [if_neg tooMany, if_neg tooMany]
  dsimp only
  rw [c.sortKeywords_eq distinctKeywords (fun _ _ absent => by simp at absent),
    refuses_eq c args (fun _ _ => rfl)]
  cases args.keyword.find? (c.refuses args) with
  | some kw => rfl
  | none =>
    dsimp only [Bind.bind, Except.bind]
    -- every parameter finds the value it receives, so the bound values and the missing
    -- parameters are those of the rules
    rw [filterMap_params c args fun q member => ?bound, filter_params c args fun q member => ?missing]
    · rfl
    case bound =>
      rw [lookup_given c args (fun _ _ => rfl) distinct member]
      unfold Arguments.boundValue
      cases args.received q.2 q.1 <;> cases q.1.default <;> rfl
    case missing =>
      rw [lookup_given c args (fun _ _ => rfl) distinct member]
      unfold Arguments.boundValue
      cases args.received q.2 q.1 <;> cases q.1.default <;> rfl

/-- A binding that succeeds binds the parameters to what they receive or their defaults and
passes on the undeclared keywords. -/
theorem bindSpec_ok {bound : Bound} (bound_ok : c.bindSpec args = .ok bound) :
    bound = ⟨c.boundParams args, c.undeclared args⟩ := by
  unfold bindSpec at bound_ok
  split at bound_ok
  · cases bound_ok
  · split at bound_ok
    · cases bound_ok
    · dsimp only at bound_ok
      split at bound_ok
      · cases bound_ok
        rfl
      · cases bound_ok

/-- A constructor's run reads the arguments only through their binding. -/
theorem invoke_congr {r : Registry} {n : Nat} {args' : Arguments}
    (same : c.bind args = c.bind args') (fields : List (String × Value)) (owner : String) :
    r.invoke n c args fields owner = r.invoke n c args' fields owner := by
  cases n with
  | zero => rfl
  | succ n => simp only [Registry.invoke, same]

/-- Binding follows the rules of keyword arguments, and what a constructor stores depends
only on the value each parameter receives and on the extra keywords, not on which values
were given positionally. -/
theorem binds_by_keyword_rules (distinct : (c.params.map (·.name)).Nodup)
    (distinctKeywords : (args.keyword.map (·.1)).Nodup) :
    c.bind args = c.bindSpec args ∧
      ∀ (args' : Arguments) (bound bound' : Bound), (args'.keyword.map (·.1)).Nodup →
        c.bind args = .ok bound → c.bind args' = .ok bound' →
        (∀ q ∈ c.params.zipIdx, args.received q.2 q.1 = args'.received q.2 q.1) →
        c.undeclared args = c.undeclared args' →
        ∀ (r : Registry) (n : Nat) (fields : List (String × Value)) (owner : String),
          r.invoke n c args fields owner = r.invoke n c args' fields owner := by
  have follows := c.bind_eq_bindSpec args distinct distinctKeywords
  refine ⟨follows, ?_⟩
  intro args' bound bound' distinctKeywords' bound_ok bound_ok' receives extras r n fields owner
  have follows' := c.bind_eq_bindSpec args' distinct distinctKeywords'
  have boundSame : c.boundParams args = c.boundParams args' := by
    refine List.filterMap_congr fun q member => ?_
    simp only [Arguments.boundValue, receives q member]
  -- both bindings succeed, so each is the parameters' values and the extra keywords
  have first := c.bindSpec_ok args (follows ▸ bound_ok)
  have second := c.bindSpec_ok args' (follows' ▸ bound_ok')
  refine c.invoke_congr args ?_ fields owner
  rw [bound_ok, bound_ok', first, second, boundSame, extras]

end Constructor

/-- A person: a required name and an optional age. -/
def personConstructor : Constructor :=
  ⟨"Person", [⟨"name", "Name", .native .string, .native .string, .required⟩,
    ⟨"age", "Age", .native .integer, .optional (.native .integer), .value .null⟩], none⟩

/-- A name given positionally and an age by keyword. -/
def adaArguments : Arguments := { positional := [.str "Ada"], keyword := [("age", .int 36)] }

theorem person_binds_by_keyword_rules :
    (personConstructor.params.map (·.name)).Nodup ∧ (adaArguments.keyword.map (·.1)).Nodup ∧
      personConstructor.bind adaArguments = personConstructor.bindSpec adaArguments :=
  ⟨by decide, by decide,
    (Constructor.binds_by_keyword_rules personConstructor adaArguments (by decide) (by decide)).1⟩

end SchemaTypes
