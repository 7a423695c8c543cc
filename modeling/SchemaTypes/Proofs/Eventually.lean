import SchemaTypes.Proofs.Compiling

/-! # Runs from some bound on

The registration functions take a bound on the depth of their calls and give up at bound
zero. A second compilation that follows a first one step by step does not know the bound it
needs in advance; what it shows is that each of its steps succeeds, with the first run's
result, at every bound from some bound on (`Compiling.Eventually`). Two such steps in a row
succeed from the larger of their bounds on, and so does a loop over a list.

The loops are followed in lockstep with a run of the first compilation: the first run's loop
comes apart into its steps, each from a state of the first run, and the second run's step
over the same item is given that step. What the second run needs of the first run's state at
the end of a step (`Good`) is known of the end of the whole loop and carried back to each
step along the first run's growth (`Before`).
-/

namespace SchemaTypes.Compiling

variable {α β γ : Type}

/-- From `s`, the steps `x` run to the result `a` and the state `t` at every bound from some
bound on. -/
def Eventually (x : Nat → Compiling α) (s : Compiler) (a : α) (t : Compiler) : Prop :=
  ∃ T, ∀ N, T ≤ N → (x N).run s = .ok (a, t)

theorem run_bind_of {x : Compiling α} {f : α → Compiling β} {s u : Compiler} {a : α}
    (first : x.run s = .ok (a, u)) : (x >>= f).run s = (f a).run u := by
  rw [StateT.run_bind, first]
  rfl

namespace Eventually

variable {x : Nat → Compiling α} {s t : Compiler} {a : α}

theorem of_run {y : Compiling α} (run : y.run s = .ok (a, t)) : Eventually (fun _ => y) s a t :=
  ⟨0, fun _ _ => run⟩

theorem run_at (eventually : Eventually x s a t) : ∃ N, (x N).run s = .ok (a, t) := by
  obtain ⟨T, runs⟩ := eventually
  exact ⟨T, runs T (Nat.le_refl T)⟩

/-- A step that needs one bound more than its body: the body runs from some bound on, so the
step runs from one more on. -/
theorem of_succ (eventually : Eventually (fun N => x (N + 1)) s a t) : Eventually x s a t := by
  obtain ⟨T, runs⟩ := eventually
  refine ⟨T + 1, fun N big => ?_⟩
  obtain ⟨M, rfl⟩ : ∃ M, N = M + 1 := ⟨N - 1, by omega⟩
  exact runs M (by omega)

/-- The form in which the steps are unfolded: for a function that needs one bound more than its
body, it is enough that the body runs from some bound on. -/
theorem exists_of_succ {Q : Compiler → Prop}
    (body : ∃ t, Eventually (fun N => x (N + 1)) s a t ∧ Q t) : ∃ t, Eventually x s a t ∧ Q t := by
  obtain ⟨t, eventually, holds⟩ := body
  exact ⟨t, eventually.of_succ, holds⟩

theorem bind {f : Nat → α → Compiling β} {u : Compiler} {b : β}
    (first : Eventually x s a u) (second : Eventually (fun N => f N a) u b t) :
    Eventually (fun N => x N >>= f N) s b t := by
  obtain ⟨T, runs⟩ := first
  obtain ⟨T', runs'⟩ := second
  refine ⟨max T T', fun N big => ?_⟩
  dsimp only
  rw [run_bind_of (runs N ((Nat.max_le.mp big).1))]
  exact runs' N ((Nat.max_le.mp big).2)

theorem exists_mono {Q R : Compiler → Prop} (found : ∃ t, Eventually x s a t ∧ Q t)
    (weaker : ∀ t, Q t → R t) : ∃ t, Eventually x s a t ∧ R t := by
  obtain ⟨t, eventually, holds⟩ := found
  exact ⟨t, eventually, weaker t holds⟩

/-- Two steps in sequence, each known from some bound on to reach a state with a property. -/
theorem exists_bind {f : Nat → α → Compiling β} {b : β} {Q R : Compiler → Prop}
    (first : ∃ u, Eventually x s a u ∧ Q u)
    (second : ∀ u, Eventually x s a u → Q u → ∃ t, Eventually (fun N => f N a) u b t ∧ R t) :
    ∃ t, Eventually (fun N => x N >>= f N) s b t ∧ R t := by
  obtain ⟨u, eventually, holds⟩ := first
  obtain ⟨t, eventually', holds'⟩ := second u eventually holds
  exact ⟨t, eventually.bind eventually', holds'⟩

/-- A first step that leaves the state as it is, followed by a body that runs from some bound
on. -/
theorem stay_bind {y : Compiling γ} {c : γ} {f : Nat → γ → Compiling α}
    (first : y.run s = .ok (c, s)) (eventually : Eventually (fun N => f N c) s a t) :
    Eventually (fun N => y >>= f N) s a t :=
  (of_run first).bind eventually

/-- A step that reads the state first: its body runs from some bound on from that state. -/
theorem get_bind {f : Nat → Compiler → Compiling α}
    (eventually : Eventually (fun N => f N s) s a t) :
    Eventually (fun N => get >>= f N) s a t :=
  stay_bind (run_get s) eventually

end Eventually

/-! ## Steps that do not touch the state -/

/-- A step that neither reads nor changes the state: it gives one outcome from every state. -/
def Stateless (x : Compiling α) : Prop :=
  ∃ r : Except Error α, ∀ s, x.run s = r.map fun a => (a, s)

namespace Stateless

theorem pure (a : α) : Stateless (Pure.pure a : Compiling α) := ⟨.ok a, fun _ => rfl⟩

theorem throw (e : Error) : Stateless (MonadExcept.throw e : Compiling α) :=
  ⟨.error e, fun _ => rfl⟩

theorem liftExcept (x : Except Error α) : Stateless (liftExcept x : Compiling α) := by
  cases x with
  | error e => exact ⟨.error e, fun _ => rfl⟩
  | ok a => exact ⟨.ok a, fun _ => rfl⟩

theorem bind {x : Compiling α} {f : α → Compiling β} (first : Stateless x)
    (rest : ∀ a, Stateless (f a)) : Stateless (x >>= f) := by
  obtain ⟨r, runs⟩ := first
  cases r with
  | error e => exact ⟨.error e, fun s => by rw [StateT.run_bind, runs]; rfl⟩
  | ok a =>
    obtain ⟨r', runs'⟩ := rest a
    exact ⟨r', fun s => by rw [run_bind_of (runs s), runs']⟩

theorem foldlM {xs : List γ} {f : β → γ → Compiling β} (step : ∀ acc x, Stateless (f acc x)) :
    ∀ init, Stateless (xs.foldlM f init) := by
  induction xs with
  | nil => exact fun init => pure init
  | cons x xs ih =>
    intro init
    rw [List.foldlM_cons]
    exact (step init x).bind ih

/-- A successful stateless step leaves the state as it is and succeeds the same way from every
state. -/
theorem run_eq {x : Compiling α} {a : α} {s t : Compiler} (stateless : Stateless x)
    (run : x.run s = .ok (a, t)) (s' : Compiler) : x.run s' = .ok (a, s') := by
  obtain ⟨r, runs⟩ := stateless
  rw [runs] at run ⊢
  cases r with
  | error e => cases run
  | ok b =>
    simp only [Except.map, Except.ok.injEq, Prod.mk.injEq] at run
    rw [run.1]
    rfl

/-- A successful stateless step leaves the state as it is, and gives its result from every
state. -/
theorem run_same {x : Compiling α} {a : α} {s t : Compiler} (stateless : Stateless x)
    (run : x.run s = .ok (a, t)) : t = s ∧ ∀ s', x.run s' = .ok (a, s') := by
  have again := stateless.run_eq run s
  rw [run] at again
  simp only [Except.ok.injEq, Prod.mk.injEq, true_and] at again
  exact ⟨again, stateless.run_eq run⟩

end Stateless

/-! ## Loops in lockstep -/

section Lockstep

variable {Inv₁ Inv₂ Good : Compiler → Prop} {Before : Compiler → Compiler → Prop}
  (refl : ∀ s, Before s s) (trans : ∀ {a b c}, Before a b → Before b c → Before a c)
  (back : ∀ {s t}, Before s t → Good t → Good s)
include refl trans back

/-- A `mapM` loop of the second run follows the first run's loop over the same list, given
that each step does: a step of the first run keeps `Inv₁` and comes `Before` its end, and when
that end is `Good` the second run makes the same step from any state with `Inv₂`. -/
theorem mapM_follows {xs : List γ} {f : Nat → γ → Compiling β} (n : Nat)
    (step : ∀ x ∈ xs, ∀ s₁ b t₁, (f n x).run s₁ = .ok (b, t₁) → Inv₁ s₁ → Inv₁ t₁ ∧
      Before s₁ t₁ ∧ ∀ s₂, Good t₁ → Inv₂ s₂ →
        ∃ t₂, Eventually (fun N => f N x) s₂ b t₂ ∧ Inv₂ t₂) :
    ∀ s₁ bs t₁ s₂, (xs.mapM (f n)).run s₁ = .ok (bs, t₁) → Inv₁ s₁ → Good t₁ → Inv₂ s₂ →
      ∃ t₂, Eventually (fun N => xs.mapM (f N)) s₂ bs t₂ ∧ Inv₂ t₂ := by
  induction xs with
  | nil =>
    intro s₁ bs t₁ s₂ run _ _ follower
    obtain ⟨rfl, rfl⟩ := pure_ok run
    exact ⟨s₂, ⟨0, fun _ _ => rfl⟩, follower⟩
  | cons x xs ih =>
    intro s₁ bs t₁ s₂ run invariant good follower
    rw [List.mapM_cons] at run
    obtain ⟨b, m₁, first, run⟩ := bind_ok run
    obtain ⟨rest, last, restRun, run⟩ := bind_ok run
    obtain ⟨rfl, rfl⟩ := pure_ok run
    have stepRest := fun z member => step z (List.mem_cons_of_mem x member)
    obtain ⟨middle, -, following⟩ := step x List.mem_cons_self s₁ b m₁ first invariant
    -- the first step ends before the end of the loop, so what the end gives holds there
    obtain ⟨-, grown, -⟩ := Compiling.mapM_keeps Inv₁ Before refl trans (fun _ _ => True)
      (fun _ _ _ _ _ => trivial)
      (fun z member s b t run inv => (fun kept => ⟨kept.1, kept.2.1, trivial⟩)
        (stepRest z member s b t run inv)) m₁ rest t₁ restRun middle
    obtain ⟨m₂, ⟨T, runs⟩, follower'⟩ := following s₂ (back grown good) follower
    obtain ⟨t₂, ⟨T', runs'⟩, final⟩ := ih stepRest m₁ rest t₁ m₂ restRun middle good follower'
    refine ⟨t₂, ⟨max T T', fun N big => ?_⟩, final⟩
    dsimp only
    rw [List.mapM_cons, run_bind_of (runs N ((Nat.max_le.mp big).1)),
      run_bind_of (runs' N ((Nat.max_le.mp big).2))]
    rfl

/-- A `filterMapM` loop of the second run follows the first run's loop over the same list. -/
theorem filterMapM_follows {xs : List γ} {f : Nat → γ → Compiling (Option β)} (n : Nat)
    (step : ∀ x ∈ xs, ∀ s₁ b t₁, (f n x).run s₁ = .ok (b, t₁) → Inv₁ s₁ → Inv₁ t₁ ∧
      Before s₁ t₁ ∧ ∀ s₂, Good t₁ → Inv₂ s₂ →
        ∃ t₂, Eventually (fun N => f N x) s₂ b t₂ ∧ Inv₂ t₂) :
    ∀ s₁ bs t₁ s₂, (xs.filterMapM (f n)).run s₁ = .ok (bs, t₁) → Inv₁ s₁ → Good t₁ →
      Inv₂ s₂ → ∃ t₂, Eventually (fun N => xs.filterMapM (f N)) s₂ bs t₂ ∧ Inv₂ t₂ := by
  induction xs with
  | nil =>
    intro s₁ bs t₁ s₂ run _ _ follower
    obtain ⟨rfl, rfl⟩ := pure_ok run
    exact ⟨s₂, ⟨0, fun _ _ => rfl⟩, follower⟩
  | cons x xs ih =>
    intro s₁ bs t₁ s₂ run invariant good follower
    rw [List.filterMapM_cons] at run
    obtain ⟨kept, m₁, first, run⟩ := bind_ok run
    have stepRest := fun z member => step z (List.mem_cons_of_mem x member)
    obtain ⟨middle, -, following⟩ := step x List.mem_cons_self s₁ kept m₁ first invariant
    -- the rest of the loop starts before the end of the loop, whichever way the first item went
    have grownRest : ∀ rest last, (xs.filterMapM (f n)).run m₁ = .ok (rest, last) →
        Before m₁ last := fun rest last restRun =>
      (Compiling.filterMapM_keeps Inv₁ Before refl trans (fun _ _ => True)
        (fun _ _ _ _ _ => trivial)
        (fun z member s b t run inv => (fun kept => ⟨kept.1, kept.2.1, fun _ _ => trivial⟩)
          (stepRest z member s b t run inv)) m₁ rest last restRun middle).2.1
    cases kept with
    | none =>
      obtain ⟨m₂, ⟨T, runs⟩, follower'⟩ := following s₂ (back (grownRest bs t₁ run) good) follower
      obtain ⟨t₂, ⟨T', runs'⟩, final⟩ := ih stepRest m₁ bs t₁ m₂ run middle good follower'
      refine ⟨t₂, ⟨max T T', fun N big => ?_⟩, final⟩
      dsimp only
      rw [List.filterMapM_cons, run_bind_of (runs N ((Nat.max_le.mp big).1))]
      exact runs' N ((Nat.max_le.mp big).2)
    | some y =>
      obtain ⟨rest, last, restRun, run⟩ := bind_ok run
      obtain ⟨rfl, rfl⟩ := pure_ok run
      obtain ⟨m₂, ⟨T, runs⟩, follower'⟩ :=
        following s₂ (back (grownRest rest t₁ restRun) good) follower
      obtain ⟨t₂, ⟨T', runs'⟩, final⟩ := ih stepRest m₁ rest t₁ m₂ restRun middle good follower'
      refine ⟨t₂, ⟨max T T', fun N big => ?_⟩, final⟩
      dsimp only
      rw [List.filterMapM_cons, run_bind_of (runs N ((Nat.max_le.mp big).1))]
      dsimp only
      rw [run_bind_of (runs' N ((Nat.max_le.mp big).2))]
      rfl

/-- A `foldlM` loop of the second run follows the first run's loop over the same list from the
same accumulator; what the first run's steps need of their accumulators (`Acc`) is kept along,
and the first run's loop ends with `Inv₁` and `Acc` too. -/
theorem foldlM_follows {xs : List γ} {f : Nat → β → γ → Compiling β} (Acc : β → Prop) (n : Nat)
    (step : ∀ x ∈ xs, ∀ acc s₁ acc' t₁, (f n acc x).run s₁ = .ok (acc', t₁) → Inv₁ s₁ → Acc acc →
      Inv₁ t₁ ∧ Acc acc' ∧ Before s₁ t₁ ∧ ∀ s₂, Good t₁ → Inv₂ s₂ →
        ∃ t₂, Eventually (fun N => f N acc x) s₂ acc' t₂ ∧ Inv₂ t₂) :
    ∀ init s₁ result t₁ s₂, (xs.foldlM (f n) init).run s₁ = .ok (result, t₁) → Inv₁ s₁ →
      Acc init → Good t₁ → Inv₂ s₂ →
      ∃ t₂, Eventually (fun N => xs.foldlM (f N) init) s₂ result t₂ ∧
        Inv₂ t₂ ∧ Inv₁ t₁ ∧ Acc result := by
  induction xs with
  | nil =>
    intro init s₁ result t₁ s₂ run invariant holds _ follower
    obtain ⟨rfl, rfl⟩ := pure_ok run
    exact ⟨s₂, ⟨0, fun _ _ => rfl⟩, follower, invariant, holds⟩
  | cons x xs ih =>
    intro init s₁ result t₁ s₂ run invariant holds good follower
    rw [List.foldlM_cons] at run
    obtain ⟨acc, m₁, first, rest⟩ := bind_ok run
    have stepRest := fun z member => step z (List.mem_cons_of_mem x member)
    obtain ⟨middle, holds', -, following⟩ :=
      step x List.mem_cons_self init s₁ acc m₁ first invariant holds
    obtain ⟨-, grown, -⟩ := Compiling.foldlM_keeps Inv₁ Before refl trans (fun acc _ => Acc acc)
      (fun z member acc s acc' t held run inv => (fun kept => ⟨kept.1, kept.2.2.1, kept.2.1⟩)
        (stepRest z member acc s acc' t run inv held)) acc m₁ result t₁ holds' rest middle
    obtain ⟨m₂, ⟨T, runs⟩, follower'⟩ := following s₂ (back grown good) follower
    obtain ⟨t₂, ⟨T', runs'⟩, final⟩ :=
      ih stepRest acc m₁ result t₁ m₂ rest middle holds' good follower'
    refine ⟨t₂, ⟨max T T', fun N big => ?_⟩, final⟩
    dsimp only
    rw [List.foldlM_cons, run_bind_of (runs N ((Nat.max_le.mp big).1))]
    exact runs' N ((Nat.max_le.mp big).2)

end Lockstep

/-- A `forM` loop of the second run alone: each step runs from some bound on and keeps `Inv`,
so the loop does. -/
theorem forM_eventually {xs : List γ} {f : Nat → γ → Compiling PUnit} (Inv : Compiler → Prop)
    (step : ∀ x ∈ xs, ∀ s, Inv s → ∃ t, Eventually (fun N => f N x) s ⟨⟩ t ∧ Inv t) :
    ∀ s, Inv s → ∃ t, Eventually (fun N => forM xs (f N)) s ⟨⟩ t ∧ Inv t := by
  induction xs with
  | nil => exact fun s invariant => ⟨s, ⟨0, fun _ _ => rfl⟩, invariant⟩
  | cons x xs ih =>
    intro s invariant
    obtain ⟨m, ⟨T, runs⟩, middle⟩ := step x List.mem_cons_self s invariant
    obtain ⟨t, ⟨T', runs'⟩, final⟩ :=
      ih (fun z member => step z (List.mem_cons_of_mem x member)) m middle
    refine ⟨t, ⟨max T T', fun N big => ?_⟩, final⟩
    dsimp only
    rw [List.forM_cons, run_bind_of (runs N ((Nat.max_le.mp big).1))]
    exact runs' N ((Nat.max_le.mp big).2)

end SchemaTypes.Compiling
