import WasmPackage.Package.Polish
import WasmPackage.Proofs.Store.Places

/-!
# Runs of actions

How each kind of step ends and what it leaves behind.  A run is taken apart with `ends_bind` and
put together with `Ends.bind`; what all its steps preserve is preserved by the run.
-/

namespace WasmPackage.Action

variable {α β : Type} {x : Action α} {f : α → Action β} {s t u : Session}

/-! ## Ends -/

/-- The action ends with a result and leaves a session behind. -/
def Ends (x : Action α) (s : Session) (r : Except Failure α) (t : Session) : Prop :=
  x.run.run s = (r, t)

theorem Ends.unique {r r' : Except Failure α} (h : Ends x s r t) (h' : Ends x s r' u) :
    r = r' ∧ t = u := by
  rw [Ends, h, Prod.mk.injEq] at h'
  exact h'

/-- The value that the action ends with, if it does not fail. -/
def value? (x : Action α) (s : Session) : Option α :=
  (x.run.run s).1.toOption

theorem Ends.value?_eq {r : Except Failure α} (h : Ends x s r t) : x.value? s = r.toOption := by
  unfold Ends at h
  rw [value?, h]

theorem exists_ends_of_value? (h : (x.value? s).isSome = true) :
    ∃ a t, Ends x s (.ok a) t := by
  rcases hrun : x.run.run s with ⟨r, t⟩
  rw [value?, hrun] at h
  cases r with
  | error e => cases h
  | ok a => exact ⟨a, t, hrun⟩

theorem ends_pure {a : α} {r : Except Failure α} :
    Ends (pure a) s r t ↔ r = .ok a ∧ t = s := by
  have h : (pure a : Action α).run.run s = (.ok a, s) := rfl
  rw [Ends, h, Prod.mk.injEq, eq_comm, @eq_comm _ s]

theorem ends_throw {e : Failure} {r : Except Failure α} :
    Ends (throw e) s r t ↔ r = .error e ∧ t = s := by
  have h : (throw e : Action α).run.run s = (.error e, s) := rfl
  rw [Ends, h, Prod.mk.injEq, eq_comm, @eq_comm _ s]

theorem ends_get {r : Except Failure Session} : Ends get s r t ↔ r = .ok s ∧ t = s := by
  have h : (get : Action Session).run.run s = (.ok s, s) := rfl
  rw [Ends, h, Prod.mk.injEq, eq_comm, @eq_comm _ s]

theorem ends_set {r : Except Failure Unit} : Ends (set u) s r t ↔ r = .ok () ∧ t = u := by
  have h : (set u : Action Unit).run.run s = (.ok (), u) := rfl
  rw [Ends, h, Prod.mk.injEq, eq_comm, @eq_comm _ u]

theorem ends_modify {g : Session → Session} {r : Except Failure Unit} :
    Ends (modify g) s r t ↔ r = .ok () ∧ t = g s := by
  have h : (modify g : Action Unit).run.run s = (.ok (), g s) := rfl
  rw [Ends, h, Prod.mk.injEq, eq_comm, @eq_comm _ (g s)]

theorem Ends.run_bind {a : α} (hx : Ends x s (.ok a) u) :
    (x >>= f).run.run s = (f a).run.run u := by
  unfold Ends at hx
  rw [ExceptT.run_bind, StateT.run_bind, hx]
  rfl

theorem Ends.bind {a : α} {r : Except Failure β} (hx : Ends x s (.ok a) u)
    (hf : Ends (f a) u r t) : Ends (x >>= f) s r t := by
  rw [Ends, hx.run_bind]
  exact hf

theorem Ends.bind_error {e : Failure} (hx : Ends x s (.error e) t) :
    Ends (x >>= f) s (.error e) t := by
  unfold Ends at hx ⊢
  rw [ExceptT.run_bind, StateT.run_bind, hx]
  rfl

/-- A sequence fails with its first part, or goes on from where that ended. -/
theorem ends_bind {r : Except Failure β} :
    Ends (x >>= f) s r t ↔
      (∃ e, Ends x s (.error e) t ∧ r = .error e) ∨
        ∃ a u, Ends x s (.ok a) u ∧ Ends (f a) u r t := by
  constructor
  · intro h
    cases hx : x.run.run s with
    | mk outcome u =>
      cases outcome with
      | error e =>
        have hfail : Ends x s (.error e) u := hx
        rcases h.unique hfail.bind_error with ⟨rfl, rfl⟩
        exact Or.inl ⟨e, hfail, rfl⟩
      | ok a =>
        have hfirst : Ends x s (.ok a) u := hx
        rw [Ends, hfirst.run_bind] at h
        exact Or.inr ⟨a, u, hfirst, h⟩
  · rintro (⟨e, hx, rfl⟩ | ⟨a, u, hx, hf⟩)
    · exact hx.bind_error
    · exact hx.bind hf

theorem ends_bind_ok {b : β} :
    Ends (x >>= f) s (.ok b) t ↔ ∃ a u, Ends x s (.ok a) u ∧ Ends (f a) u (.ok b) t := by
  rw [ends_bind]
  constructor
  · rintro (⟨e, -, he⟩ | h)
    · cases he
    · exact h
  · exact Or.inr

/-- What follows a failure goes on from where that has ended. -/
theorem ends_tryCatch {g : Failure → Action α} {r : Except Failure α} :
    Ends (tryCatch x g) s r t ↔
      (∃ a, Ends x s (.ok a) t ∧ r = .ok a) ∨ ∃ e u, Ends x s (.error e) u ∧ Ends (g e) u r t := by
  cases hx : x.run.run s with
  | mk outcome u =>
    rw [Ends, ExceptT.run_tryCatch, StateT.run_bind, hx]
    cases outcome with
    | ok a =>
      have hdone : Ends x s (.ok a) u := hx
      constructor
      · rintro ⟨⟩
        exact .inl ⟨a, hdone, rfl⟩
      · rintro (⟨b, hb, rfl⟩ | ⟨e, v, he, -⟩)
        · rcases hb.unique hdone with ⟨⟨⟩, rfl⟩
          rfl
        · cases (he.unique hdone).1
    | error e =>
      have hfail : Ends x s (.error e) u := hx
      constructor
      · exact fun h => .inr ⟨e, u, hfail, h⟩
      · rintro (⟨b, hb, -⟩ | ⟨e', v, he, h⟩)
        · cases (hb.unique hfail).1
        · rcases he.unique hfail with ⟨⟨⟩, rfl⟩
          exact h

theorem ends_get_bind {g : Session → Action β} {r : Except Failure β} :
    Ends (get >>= g) s r t ↔ Ends (g s) s r t := by
  constructor
  · intro h
    rcases ends_bind.mp h with ⟨e, hget, -⟩ | ⟨a, u, hget, hg⟩
    · cases (ends_get.mp hget).1
    · rcases ends_get.mp hget with ⟨ha, rfl⟩
      cases ha
      exact hg
  · exact (ends_get.mpr ⟨rfl, rfl⟩).bind

theorem ends_ofExcept_ok {ε : Type} {failure : ε → Failure} {y : Except ε α} {a : α} :
    Ends (ofExcept failure y) s (.ok a) t ↔ y = .ok a ∧ t = s := by
  cases y with
  | ok b => simp [ofExcept, ends_pure, eq_comm]
  | error e => simp [ofExcept, ends_throw]

theorem ends_ofExcept_error {ε : Type} {failure : ε → Failure} {y : Except ε α} {e : Failure} :
    Ends (ofExcept failure y) s (.error e) t ↔
      ∃ cause, y = .error cause ∧ e = failure cause ∧ t = s := by
  cases y with
  | ok b => simp [ofExcept, ends_pure]
  | error e => simp [ofExcept, ends_throw]

theorem ends_ofExcept_ok_bind {ε : Type} {failure : ε → Failure} {a : α} {r : Except Failure β} :
    Ends (ofExcept failure (.ok a) >>= f) s r t ↔ Ends (f a) s r t := by
  have hbind : ofExcept failure (.ok a) >>= f = f a := pure_bind a f
  rw [hbind]

theorem ends_ofExcept_error_bind {ε : Type} {failure : ε → Failure} {e : ε}
    {r : Except Failure β} :
    Ends (ofExcept failure (.error e) >>= f) s r t ↔ r = .error (failure e) ∧ t = s := by
  have hthrow : Ends (ofExcept failure (.error e) >>= f) s (.error (failure e)) s :=
    Ends.bind_error (ends_throw.mpr ⟨rfl, rfl⟩)
  constructor
  · exact fun h => h.unique hthrow
  · rintro ⟨rfl, rfl⟩
    exact hthrow

theorem ends_set_bind {g : PUnit → Action β} {r : Except Failure β} :
    Ends (set u >>= g) s r t ↔ Ends (g ⟨⟩) u r t := by
  constructor
  · intro h
    rcases ends_bind.mp h with ⟨e, hset, -⟩ | ⟨⟨⟩, v, hset, h⟩
    · cases (ends_set.mp hset).1
    · rcases ends_set.mp hset with ⟨-, rfl⟩
      exact h
  · exact (ends_set.mpr ⟨rfl, rfl⟩).bind

/-- The failure that an error of the store ends a run with. -/
def storeFailure (failure : StoreError → Failure) (e : StoreError) : Failure :=
  if e = .zeroInName then .store e else failure e

theorem storeFailure_of_ne {failure : StoreError → Failure} {e : StoreError}
    (he : e ≠ .zeroInName) : storeFailure failure e = failure e :=
  if_neg he

theorem ends_ofStore_ok {failure : StoreError → Failure} {y : Except StoreError α} {a : α} :
    Ends (ofStore failure y) s (.ok a) t ↔ y = .ok a ∧ t = s :=
  ends_ofExcept_ok

theorem ends_ofStore_error {failure : StoreError → Failure} {y : Except StoreError α}
    {e : Failure} :
    Ends (ofStore failure y) s (.error e) t ↔
      ∃ cause, y = .error cause ∧ e = storeFailure failure cause ∧ t = s :=
  ends_ofExcept_error

/-! ## What actions preserve -/

/-- What holds of a session when the action begins holds of the one that it leaves behind, also
when it fails. -/
def Preserves (x : Action α) (P : Session → Prop) : Prop :=
  ∀ s r t, P s → Ends x s r t → P t

section

variable {P : Session → Prop}

theorem preserves_pure (a : α) : Preserves (pure a) P := by
  intro s r t hs h
  rcases ends_pure.mp h with ⟨-, rfl⟩
  exact hs

theorem preserves_throw (e : Failure) : Preserves (throw e : Action α) P := by
  intro s r t hs h
  rcases ends_throw.mp h with ⟨-, rfl⟩
  exact hs

theorem preserves_get : Preserves (get : Action Session) P := by
  intro s r t hs h
  rcases ends_get.mp h with ⟨-, rfl⟩
  exact hs

theorem preserves_modify {g : Session → Session} (hg : ∀ s, P s → P (g s)) :
    Preserves (modify g) P := by
  intro s r t hs h
  rcases ends_modify.mp h with ⟨-, rfl⟩
  exact hg s hs

theorem Preserves.bind_of_ends (hx : Preserves x P)
    (hf : ∀ s a t, P s → Ends x s (.ok a) t → Preserves (f a) P) : Preserves (x >>= f) P := by
  intro s r t hs h
  -- if the first part fails, the second one is not begun
  rcases ends_bind.mp h with ⟨e, hfail, -⟩ | ⟨a, u, hfirst, hrest⟩
  · exact hx s _ t hs hfail
  · exact hf s a u hs hfirst u r t (hx s _ u hs hfirst) hrest

theorem Preserves.bind (hx : Preserves x P) (hf : ∀ a, Preserves (f a) P) :
    Preserves (x >>= f) P :=
  hx.bind_of_ends (fun _ a _ _ _ => hf a)

theorem preserves_ofExcept {ε : Type} (failure : ε → Failure) (y : Except ε α) :
    Preserves (ofExcept failure y) P := by
  cases y with
  | ok a => exact preserves_pure a
  | error e => exact preserves_throw (failure e)

theorem preserves_ofStore (failure : StoreError → Failure) (y : Except StoreError α) :
    Preserves (ofStore failure y) P :=
  preserves_ofExcept _ y

end

/-! ## Changing the store -/

theorem ends_changeStore_ok {failure : StoreError → Failure}
    {g : Store → Except StoreError Store} :
    Ends (changeStore failure g) s (.ok ()) t ↔
      ∃ store, g s.store = .ok store ∧ t = { s with store := store } := by
  unfold changeStore
  rw [ends_get_bind, ends_bind]
  constructor
  · rintro (⟨e, -, he⟩ | ⟨store, u, hstore, hset⟩)
    · cases he
    · rcases ends_ofStore_ok.mp hstore with ⟨hg, rfl⟩
      exact ⟨store, hg, (ends_set.mp hset).2⟩
  · rintro ⟨store, hg, rfl⟩
    exact Or.inr ⟨store, s, ends_ofStore_ok.mpr ⟨hg, rfl⟩, ends_set.mpr ⟨rfl, rfl⟩⟩

theorem ends_changeStore_error {failure : StoreError → Failure}
    {g : Store → Except StoreError Store} {e : Failure} :
    Ends (changeStore failure g) s (.error e) t ↔
      ∃ cause, g s.store = .error cause ∧ e = storeFailure failure cause ∧ t = s := by
  unfold changeStore
  rw [ends_get_bind, ends_bind]
  constructor
  · rintro (⟨e', hfail, he⟩ | ⟨store, u, hstore, hset⟩)
    · cases he
      exact ends_ofStore_error.mp hfail
    · cases (ends_set.mp hset).1
  · intro h
    exact Or.inl ⟨e, ends_ofStore_error.mpr h, rfl⟩

theorem Ends.changeStore_of_ok {failure : StoreError → Failure}
    {g : Store → Except StoreError Store} {store : Store} {r : Except Failure Unit}
    (h : Ends (changeStore failure g) s r t) (hg : g s.store = .ok store) :
    r = .ok () ∧ t = { s with store := store } :=
  h.unique (ends_changeStore_ok.mpr ⟨store, hg, rfl⟩)

theorem Ends.changeStore_of_error {failure : StoreError → Failure}
    {g : Store → Except StoreError Store} {e : StoreError} {r : Except Failure Unit}
    (h : Ends (changeStore failure g) s r t) (hg : g s.store = .error e) :
    r = .error (storeFailure failure e) ∧ t = s :=
  h.unique (ends_changeStore_error.mpr ⟨e, hg, rfl, rfl⟩)

end WasmPackage.Action
