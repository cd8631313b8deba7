import StateOwnership.Proofs.World.Running

/-!
# What a client comes to

A client notes what it asks of the services and what it has to say to the log, and reads neither.
**A step of a client ends alike wherever the same is established**, so connecting for a backend ends
in every world with the same connection, or with the same failure. More generally there are actions
whose result shows nothing of a world but how often was waited in it.
-/

namespace StateOwnership

namespace Client

/-! ## 1. Settled steps -/

/-- Two states of a client in which it has established the same. -/
structure State.Alike (s t : State) : Prop where
  session_eq : s.session = t.session
  connections_eq : s.connections = t.connections

/-- A step that ends alike in states in which the same is established. -/
def Step.Settled {α : Type} (step : Step α) : Prop :=
  ∀ s t : State, s.Alike t → (step.run.run s).1 = (step.run.run t).1 ∧
    (step.run.run s).2.Alike (step.run.run t).2

namespace Step.Settled

variable {α β : Type}

theorem pure (a : α) : Settled (Pure.pure a : Step α) := fun _ _ h => ⟨rfl, h⟩

theorem throw (failure : Failure) : Settled (MonadExcept.throw failure : Step α) :=
  fun _ _ h => ⟨rfl, h⟩

theorem record (level : Log.Level) (message : Text) : Settled (Client.record level message) :=
  fun _ _ h => ⟨rfl, h.session_eq, h.connections_eq⟩

theorem call (c : Call) : Settled (Client.call c) :=
  fun _ _ h => ⟨rfl, h.session_eq, h.connections_eq⟩

theorem bind {step : Step α} {next : α → Step β} (h : Settled step)
    (hnext : ∀ a, Settled (next a)) : Settled (step >>= next) := by
  intro s t hst
  obtain ⟨hresult, halike⟩ := h s t hst
  simp only [Bind.bind, ExceptT.bind, ExceptT.mk, ExceptT.run, StateT.run, StateT.bind]
    at hresult halike ⊢
  rcases hs : step s with ⟨result, s'⟩
  rcases ht : step t with ⟨result', t'⟩
  rw [hs, ht] at hresult halike
  obtain rfl : result = result' := hresult
  cases result with
  | ok a => exact hnext a s' t' halike
  | error failure => exact ⟨rfl, halike⟩

theorem get {next : State → Step β} (hsame : ∀ s t : State, s.Alike t → next s = next t)
    (h : ∀ s, Settled (next s)) : Settled (MonadState.get >>= next) := by
  intro s t hst
  show ((next s).run.run s).1 = ((next t).run.run t).1 ∧
    ((next s).run.run s).2.Alike ((next t).run.run t).2
  rw [hsame s t hst]
  exact h t s t hst

theorem rewording (report : ServiceError → Failure) {step : Step α} (h : Settled step) :
    Settled (Client.rewording report step) := by
  intro s t hst
  obtain ⟨hresult, halike⟩ := h s t hst
  simp only [Client.rewording, tryCatch, tryCatchThe, MonadExceptOf.tryCatch, ExceptT.tryCatch,
    ExceptT.mk, ExceptT.run, StateT.run, Bind.bind, StateT.bind] at hresult halike ⊢
  rcases hs : step s with ⟨result, s'⟩
  rcases ht : step t with ⟨result', t'⟩
  rw [hs, ht] at hresult halike
  obtain rfl : result = result' := hresult
  cases result with
  | ok a => exact ⟨rfl, halike⟩
  | error failure => exact ⟨rfl, halike⟩

end Step.Settled

/-! ## 2. The steps of a client -/

section Steps

variable (cloud : Cloud) (client : Client)

end Steps
end Client

/-! ## 3. Actions that end alike after the same number of waits -/

namespace Action

/-- An action that does not wait, and whose result depends on the number of waits so far alone. -/
def Timed {α : Type} (action : Action α) : Prop :=
  ∀ ticks, ∃ result, ∀ world : World, world.ticks = ticks →
    ∃ after, action.runIn world = (result, after) ∧ after.ticks = ticks

namespace Timed

variable {α β : Type} {action : Action α}

theorem pure (a : α) : Timed (Pure.pure a : Action α) :=
  fun _ => ⟨_, fun world h => ⟨world, rfl, h⟩⟩

theorem throw (failure : Failure) : Timed (MonadExcept.throw failure : Action α) :=
  fun _ => ⟨_, fun world h => ⟨world, rfl, h⟩⟩

theorem record (level : Log.Level) (source message : Text) :
    Timed (Action.record level source message) := fun _ => ⟨_, fun _ h => ⟨_, rfl, h⟩⟩

theorem call (c : Call) : Timed (Action.call c) := fun _ => ⟨_, fun _ h => ⟨_, rfl, h⟩⟩

theorem changeFiles (change : FileTree → FileTree) : Timed (Action.changeFiles change) :=
  fun _ => ⟨_, fun _ h => ⟨_, rfl, h⟩⟩

theorem ticks : Timed Action.ticks := by
  intro ticks
  refine ⟨.ok ticks, fun world h => ⟨world, ?_, h⟩⟩
  rw [runIn_ticks, h]

theorem bind {next : α → Action β} (h : Timed action) (hnext : ∀ a, Timed (next a)) :
    Timed (action >>= next) := by
  intro ticks
  obtain ⟨result, hfirst⟩ := h ticks
  cases result with
  | error failure =>
    refine ⟨.error failure, fun world hworld => ?_⟩
    obtain ⟨after, hrun, hafter⟩ := hfirst world hworld
    exact ⟨after, by rw [runIn_bind, hrun], hafter⟩
  | ok a =>
    obtain ⟨result, hthen⟩ := hnext a ticks
    refine ⟨result, fun world hworld => ?_⟩
    obtain ⟨between, hrun, hbetween⟩ := hfirst world hworld
    obtain ⟨after, hrun', hafter⟩ := hthen between hbetween
    refine ⟨after, ?_, hafter⟩
    rw [runIn_bind, hrun]
    exact hrun'

theorem onFailure {remedy : Action Unit} (h : Timed action) (hremedy : Timed remedy) :
    Timed (action.onFailure remedy) := by
  intro ticks
  obtain ⟨result, hfirst⟩ := h ticks
  cases result with
  | ok a =>
    refine ⟨.ok a, fun world hworld => ?_⟩
    obtain ⟨after, hrun, hafter⟩ := hfirst world hworld
    exact ⟨after, by rw [runIn_onFailure, hrun], hafter⟩
  | error failure =>
    obtain ⟨result, hthen⟩ := hremedy ticks
    refine ⟨.error (match result with | .ok _ => failure | .error other => other),
      fun world hworld => ?_⟩
    obtain ⟨between, hrun, hbetween⟩ := hfirst world hworld
    obtain ⟨after, hrun', hafter⟩ := hthen between hbetween
    refine ⟨after, ?_, hafter⟩
    rw [runIn_onFailure, hrun]
    simp only [hrun']
    cases result <;> rfl

theorem andFinally (h : Timed action) (change : FileTree → FileTree) :
    Timed (action.andFinally change) := by
  intro ticks
  obtain ⟨result, hresult⟩ := h ticks
  refine ⟨result, fun world hworld => ?_⟩
  obtain ⟨between, hrun, hbetween⟩ := hresult world hworld
  rcases hfinally : (action.andFinally change).runIn world with ⟨found, after⟩
  obtain ⟨between', hrun', rfl⟩ := andFinally_eq hfinally
  rw [hrun, Prod.mk.injEq] at hrun'
  obtain ⟨rfl, rfl⟩ := hrun'
  exact ⟨_, rfl, hbetween⟩

theorem rewording (h : Timed action) (reword : Failure → Failure) :
    Timed (tryCatch action fun failure => MonadExcept.throw (reword failure)) := by
  intro ticks
  obtain ⟨result, hresult⟩ := h ticks
  refine ⟨result.mapError reword, fun world hworld => ?_⟩
  obtain ⟨after, hrun, hafter⟩ := hresult world hworld
  refine ⟨after, ?_, hafter⟩
  rw [runIn_tryCatch, hrun]
  cases result <;> rfl

theorem ofClient {step : Client.Step α} (h : step.Settled) : Timed (Action.ofClient step) := by
  intro ticks
  refine ⟨(step.run.run (.fresh [])).1, fun world hworld => ?_⟩
  have hticks := (World.Alike.ofClient step world).ticks_eq
  rcases hrun : (Action.ofClient step).runIn world with ⟨result, after⟩
  rw [hrun] at hticks
  refine ⟨after, ?_, hticks.trans hworld⟩
  rw [Prod.mk.injEq]
  refine ⟨?_, rfl⟩
  rw [(h (.fresh []) (.fresh world.calls) ⟨rfl, rfl⟩).1]
  unfold Action.ofClient runIn at hrun
  simp only [ExceptT.run, StateT.run] at hrun ⊢
  rcases hstep : step (.fresh world.calls) with ⟨found, state⟩
  rw [hstep] at hrun
  exact (Prod.mk.inj hrun).1.symm

end Timed
end Action

end StateOwnership
