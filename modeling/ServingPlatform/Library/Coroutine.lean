import Mathlib.Logic.Relation
import Mathlib.Tactic.Common

/-! Cooperative tasks over a shared state, and a rule system for what holds
at their suspension points. -/

/-- A task's remaining program. `await` suspends it until its operation is
answered; everything between two suspensions is atomic. -/
inductive Coro (σ Op : Type) (Ans : Op → Type) (ε α : Type) : Type
  | done (result : Except ε α)
  | get (k : σ → Coro σ Op Ans ε α)
  | set (s : σ) (k : Coro σ Op Ans ε α)
  | now (k : Int → Coro σ Op Ans ε α)
  | await (op : Op) (k : Except ε (Ans op) → Coro σ Op Ans ε α)

namespace Coro

variable {σ Op : Type} {Ans : Op → Type} {ε α β : Type}

/-- Continues with the result, whether it is a value or an exception. -/
def bindResult : Coro σ Op Ans ε α → (Except ε α → Coro σ Op Ans ε β) → Coro σ Op Ans ε β
  | .done result, f => f result
  | .get k, f => .get fun s => bindResult (k s) f
  | .set s k, f => .set s (bindResult k f)
  | .now k, f => .now fun reading => bindResult (k reading) f
  | .await op k, f => .await op fun answer => bindResult (k answer) f

instance : Monad (Coro σ Op Ans ε) where
  pure a := .done (.ok a)
  bind c f := c.bindResult fun
    | .ok a => f a
    | .error e => .done (.error e)

def lift (result : Except ε α) : Coro σ Op Ans ε α := .done result

def raise (e : ε) : Coro σ Op Ans ε α := .done (.error e)

def read : Coro σ Op Ans ε σ := .get fun s => .done (.ok s)

/-- An atomic update that may raise. -/
def sync (f : σ → Except ε α × σ) : Coro σ Op Ans ε α := .get fun s => .set (f s).2 (.done (f s).1)

def modify (f : σ → σ) : Coro σ Op Ans ε Unit := .get fun s => .set (f s) (.done (.ok ()))

def clock : Coro σ Op Ans ε Int := .now fun reading => .done (.ok reading)

def request (op : Op) : Coro σ Op Ans ε (Ans op) := .await op .done

/-- `try` with the exception as a value. -/
def attempt (c : Coro σ Op Ans ε α) : Coro σ Op Ans ε (Except ε α) := c.bindResult fun result => .done (.ok result)

def catchError (c : Coro σ Op Ans ε α) (handler : ε → Coro σ Op Ans ε α) : Coro σ Op Ans ε α :=
  c.bindResult fun
    | .ok a => .done (.ok a)
    | .error e => handler e

/-- Where a task stops running: it is over, or waits for an answer. -/
inductive Outcome (σ Op : Type) (Ans : Op → Type) (ε α : Type) : Type
  | finished (result : Except ε α)
  | waiting (op : Op) (k : Except ε (Ans op) → Coro σ Op Ans ε α)

/-- The part of a larger state that programs see. -/
structure Window (σ τ : Type) where
  view : τ → σ
  put : τ → σ → τ
  view_put : ∀ t s, view (put t s) = s

variable {τ : Type} (window : Window σ τ)

/-- Running to the next suspension; every reading of the clock is possible. -/
inductive Advances : Coro σ Op Ans ε α → τ → Outcome σ Op Ans ε α → τ → Prop
  | done {result : Except ε α} {t : τ} : Advances (.done result) t (.finished result) t
  | await {op : Op} {k : Except ε (Ans op) → Coro σ Op Ans ε α} {t : τ} : Advances (.await op k) t (.waiting op k) t
  | get {k : σ → Coro σ Op Ans ε α} {t t' : τ} {outcome : Outcome σ Op Ans ε α}
      (rest : Advances (k (window.view t)) t outcome t') : Advances (.get k) t outcome t'
  | set {s : σ} {k : Coro σ Op Ans ε α} {t t' : τ} {outcome : Outcome σ Op Ans ε α}
      (rest : Advances k (window.put t s) outcome t') : Advances (.set s k) t outcome t'
  | now {k : Int → Coro σ Op Ans ε α} {t t' : τ} {outcome : Outcome σ Op Ans ε α} (reading : Int)
      (rest : Advances (k reading) t outcome t') : Advances (.now k) t outcome t'

/-- Runs to the next suspension with one clock reading. -/
def advance (reading : Int) : Coro σ Op Ans ε α → τ → Outcome σ Op Ans ε α × τ
  | .done result, t => (.finished result, t)
  | .await op k, t => (.waiting op k, t)
  | .get k, t => advance reading (k (window.view t)) t
  | .set s k, t => advance reading k (window.put t s)
  | .now k, t => advance reading (k reading) t

theorem advance_advances (reading : Int) (c : Coro σ Op Ans ε α) (t : τ) :
    Advances window c t (advance window reading c t).1 (advance window reading c t).2 := by
  induction c generalizing t with
  | done result => exact .done
  | get k ih => exact .get (ih _ t)
  | set s k ih => exact .set (ih _)
  | now k ih => exact .now reading (ih reading t)
  | await op k => exact .await

/-- What a task may do to the state, what it must establish when it waits
for an answer, and what it may then rely on. -/
structure Protocol (τ Op : Type) (Ans : Op → Type) (ε : Type) where
  update : τ → τ → Prop
  call : Op → τ → Prop
  answer : (op : Op) → τ → Except ε (Ans op) → τ → Prop

/-- The program respects the protocol from a state on, and ends in `Q`. -/
def Safe (P : Protocol τ Op Ans ε) : Coro σ Op Ans ε α → (Except ε α → τ → Prop) → τ → Prop
  | .done result, Q, t => Q result t
  | .get k, Q, t => Safe P (k (window.view t)) Q t
  | .set s k, Q, t => P.update t (window.put t s) ∧ Safe P k Q (window.put t s)
  | .now k, Q, t => ∀ reading, Safe P (k reading) Q t
  | .await op k, Q, t => P.call op t ∧ ∀ result t', P.answer op t result t' → Safe P (k result) Q t'

variable {window} {P : Protocol τ Op Ans ε} {Q : Except ε α → τ → Prop}

theorem safe_bindResult {c : Coro σ Op Ans ε α} {f : Except ε α → Coro σ Op Ans ε β} {R : Except ε β → τ → Prop}
    {t : τ} : Safe window P (c.bindResult f) R t ↔ Safe window P c (fun result => Safe window P (f result) R) t := by
  induction c generalizing t with
  | done result => rfl
  | get k ih => exact ih _
  | set s k ih => exact and_congr_right fun _ => ih
  | now k ih => exact forall_congr' fun reading => ih reading
  | await op k ih => exact and_congr_right fun _ => forall_congr' fun result => forall_congr' fun t' =>
      imp_congr_right fun _ => ih result

theorem Safe.mono {c : Coro σ Op Ans ε α} {Q R : Except ε α → τ → Prop} {t : τ} (safe : Safe window P c Q t)
    (weaken : ∀ result t', Q result t' → R result t') : Safe window P c R t := by
  induction c generalizing t with
  | done result => exact weaken result t safe
  | get k ih => exact ih _ safe
  | set s k ih => exact ⟨safe.1, ih safe.2⟩
  | now k ih => exact fun reading => ih reading (safe reading)
  | await op k ih => exact ⟨safe.1, fun result t' answered => ih result (safe.2 result t' answered)⟩

@[simp] theorem safe_pure {a : α} {t : τ} :
    Safe window P (pure a : Coro σ Op Ans ε α) Q t ↔ Q (.ok a) t := Iff.rfl

@[simp] theorem safe_lift {result : Except ε α} {t : τ} :
    Safe window P (lift result : Coro σ Op Ans ε α) Q t ↔ Q result t := Iff.rfl

@[simp] theorem safe_raise {e : ε} {t : τ} :
    Safe window P (raise e : Coro σ Op Ans ε α) Q t ↔ Q (.error e) t := Iff.rfl

theorem safe_bind {c : Coro σ Op Ans ε α} {f : α → Coro σ Op Ans ε β} {R : Except ε β → τ → Prop} {t : τ} :
    Safe window P (c >>= f) R t ↔ Safe window P c (fun result t' => match result with
      | .ok a => Safe window P (f a) R t'
      | .error e => R (.error e) t') t := by
  refine safe_bindResult.trans ⟨fun safe => safe.mono ?_, fun safe => safe.mono ?_⟩ <;>
    (intro result t' held; cases result <;> exact held)

theorem safe_ite {p : Prop} [Decidable p] {c d : Coro σ Op Ans ε α} {t : τ} (yes : p → Safe window P c Q t)
    (no : ¬ p → Safe window P d Q t) : Safe window P (if p then c else d) Q t := by
  split
  · exact yes ‹p›
  · exact no ‹¬ p›

theorem safe_attempt {c : Coro σ Op Ans ε α} {R : Except ε (Except ε α) → τ → Prop} {t : τ} :
    Safe window P c.attempt R t ↔ Safe window P c (fun result => R (.ok result)) t :=
  safe_bindResult

theorem safe_catchError {c : Coro σ Op Ans ε α} {handler : ε → Coro σ Op Ans ε α} {t : τ} :
    Safe window P (c.catchError handler) Q t ↔ Safe window P c (fun result t' => match result with
      | .ok a => Q (.ok a) t'
      | .error e => Safe window P (handler e) Q t') t := by
  refine safe_bindResult.trans ⟨fun safe => safe.mono ?_, fun safe => safe.mono ?_⟩ <;>
    (intro result t' held; cases result <;> exact held)

theorem safe_read {f : σ → Coro σ Op Ans ε β} {R : Except ε β → τ → Prop} {t : τ} :
    Safe window P (read >>= f) R t ↔ Safe window P (f (window.view t)) R t := Iff.rfl

theorem safe_sync {f : σ → Except ε α × σ} {t : τ} :
    Safe window P (sync f) Q t ↔ P.update t (window.put t (f (window.view t)).2) ∧
      Q (f (window.view t)).1 (window.put t (f (window.view t)).2) := Iff.rfl

theorem safe_modify {f : σ → σ} {k : Unit → Coro σ Op Ans ε β} {R : Except ε β → τ → Prop} {t : τ} :
    Safe window P (modify f >>= k) R t ↔ P.update t (window.put t (f (window.view t))) ∧
      Safe window P (k ()) R (window.put t (f (window.view t))) := Iff.rfl

theorem safe_clock {k : Int → Coro σ Op Ans ε β} {R : Except ε β → τ → Prop} {t : τ} :
    Safe window P (clock >>= k) R t ↔ ∀ reading, Safe window P (k reading) R t := Iff.rfl

theorem safe_request {op : Op} {Q : Except ε (Ans op) → τ → Prop} {t : τ} :
    Safe window P (request op) Q t ↔ P.call op t ∧ ∀ result t', P.answer op t result t' → Q result t' := Iff.rfl

variable (window) in
/-- What is known of a task that has stopped running. -/
def Holds (P : Protocol τ Op Ans ε) (Q : Except ε α → τ → Prop) : Outcome σ Op Ans ε α → τ → Prop
  | .finished result, t => Q result t
  | .waiting op k, t => P.call op t ∧ ∀ result t', P.answer op t result t' → Safe window P (k result) Q t'

/-- Running a safe program makes updates of its protocol only. -/
theorem Safe.advances {c : Coro σ Op Ans ε α} {t t' : τ} {outcome : Outcome σ Op Ans ε α}
    (safe : Safe window P c Q t) (run : Advances window c t outcome t') :
    Relation.ReflTransGen P.update t t' ∧ Holds window P Q outcome t' := by
  induction run with
  | done => exact ⟨.refl, safe⟩
  | await => exact ⟨.refl, safe⟩
  | get rest ih => exact ih safe
  | set rest ih =>
    obtain ⟨updates, held⟩ := ih safe.2
    exact ⟨.head safe.1 updates, held⟩
  | now reading rest ih => exact ih (safe reading)

/-- A relation along which the state moves, whoever moves it, holds from the start to the end. -/
theorem Safe.along {c : Coro σ Op Ans ε α} {R : τ → τ → Prop} {t : τ} (refl : ∀ t, R t t)
    (trans : ∀ {t₁ t₂ t₃}, R t₁ t₂ → R t₂ t₃ → R t₁ t₃) (update : ∀ t t', P.update t t' → R t t')
    (answer : ∀ op t result t', P.call op t → P.answer op t result t' → R t t') (safe : Safe window P c Q t) :
    Safe window P c (fun result t' => Q result t' ∧ R t t') t := by
  induction c generalizing t with
  | done result => exact ⟨safe, refl t⟩
  | get k ih => exact ih _ safe
  | set s k ih => exact ⟨safe.1, (ih safe.2).mono fun _ _ held => ⟨held.1, trans (update _ _ safe.1) held.2⟩⟩
  | now k ih => exact fun reading => ih reading (safe reading)
  | await op k ih =>
    refine ⟨safe.1, fun result t' given => (ih result (safe.2 result t' given)).mono fun _ _ held => ?_⟩
    exact ⟨held.1, trans (answer op t result t' safe.1 given) held.2⟩

section Lift

variable {τ' β : Type} {window' : Window σ τ'} {P' : Protocol τ' Op Ans ε}

/-- A program that is safe over a part of a state is safe over the whole
state, and what it does not see is kept. -/
theorem Safe.lift {c : Coro σ Op Ans ε α} (project : τ' → τ) (keep : τ' → β)
    (view : ∀ u, window'.view u = window.view (project u))
    (put : ∀ u s, project (window'.put u s) = window.put (project u) s)
    (update : ∀ u s, P.update (project u) (window.put (project u) s) →
      P'.update u (window'.put u s) ∧ keep (window'.put u s) = keep u)
    (call : ∀ op u, P.call op (project u) → P'.call op u)
    (answer : ∀ op u result u', P'.answer op u result u' →
      P.answer op (project u) result (project u') ∧ keep u' = keep u)
    {u : τ'} (safe : Safe window P c Q (project u)) :
    Safe window' P' c (fun result u' => Q result (project u') ∧ keep u' = keep u) u := by
  induction c generalizing u with
  | done result => exact ⟨safe, rfl⟩
  | get k ih =>
    show Safe window' P' (k (window'.view u)) _ u
    rw [view]
    exact ih _ safe
  | set s k ih =>
    obtain ⟨along, kept⟩ := update u s safe.1
    refine ⟨along, (ih (put u s ▸ safe.2)).mono fun result u' held => ?_⟩
    exact ⟨held.1, held.2.trans kept⟩
  | now k ih => exact fun reading => ih reading (safe reading)
  | await op k ih =>
    refine ⟨call op u safe.1, fun result u' given => ?_⟩
    obtain ⟨below, kept⟩ := answer op u result u' given
    refine (ih result (safe.2 result _ below)).mono fun result u'' held => ?_
    exact ⟨held.1, held.2.trans kept⟩

/-- What is seen through a wider window runs as before. -/
theorem Advances.project {c : Coro σ Op Ans ε α} {outcome : Outcome σ Op Ans ε α} (project : τ' → τ)
    (view : ∀ u, window'.view u = window.view (project u))
    (put : ∀ u s, project (window'.put u s) = window.put (project u) s) {u u' : τ'}
    (run : Advances window' c u outcome u') : Advances window c (project u) outcome (project u') := by
  induction run with
  | done => exact .done
  | await => exact .await
  | get rest ih => exact .get (view _ ▸ ih)
  | set rest ih => exact .set (put _ _ ▸ ih)
  | now reading rest ih => exact .now reading ih

/-- A run is seen through a wider window. -/
theorem Advances.widen {c : Coro σ Op Ans ε α} {outcome : Outcome σ Op Ans ε α} (project : τ' → τ)
    (view : ∀ u, window'.view u = window.view (project u))
    (put : ∀ u s, project (window'.put u s) = window.put (project u) s) {t t' : τ}
    (run : Advances window c t outcome t') {u : τ'} (same : project u = t) :
    ∃ u', project u' = t' ∧ Advances window' c u outcome u' := by
  induction run generalizing u with
  | done => exact ⟨u, same, .done⟩
  | await => exact ⟨u, same, .await⟩
  | get rest ih =>
    obtain ⟨u', after, further⟩ := ih same
    refine ⟨u', after, .get ?_⟩
    rw [view, same]
    exact further
  | @set s _ _ _ _ rest ih =>
    obtain ⟨u', after, further⟩ := ih ((put u s).trans (by rw [same]))
    exact ⟨u', after, .set further⟩
  | now reading rest ih =>
    obtain ⟨u', after, further⟩ := ih same
    exact ⟨u', after, .now reading further⟩

end Lift

section Steady

variable (window) (R : σ → σ → Prop)

/-- Every update is along a relation of what programs see. -/
def alongside : Protocol τ Op Ans ε where
  update t t' := R (window.view t) (window.view t')
  call _ _ := True
  answer _ _ _ _ := True

/-- Whatever it is answered, the program updates the state along the relation. -/
def Steady (c : Coro σ Op Ans ε α) : Prop := ∀ t, Safe window (alongside window R) c (fun _ _ => True) t

variable {window R}

theorem steady_lift (result : Except ε α) : Steady window R (lift result : Coro σ Op Ans ε α) := fun _ => trivial

theorem steady_pure (a : α) : Steady window R (pure a : Coro σ Op Ans ε α) := fun _ => trivial

theorem steady_raise (e : ε) : Steady window R (raise e : Coro σ Op Ans ε α) := fun _ => trivial

theorem steady_read : Steady window R (read : Coro σ Op Ans ε σ) := fun _ => trivial

theorem steady_clock : Steady window R (clock : Coro σ Op Ans ε Int) := fun _ _ => trivial

theorem steady_request (op : Op) : Steady window R (request op : Coro σ Op Ans ε (Ans op)) :=
  fun _ => ⟨trivial, fun _ _ _ => trivial⟩

theorem steady_modify {f : σ → σ} (along : ∀ s, R s (f s)) : Steady window R (modify f : Coro σ Op Ans ε Unit) := by
  intro t
  refine ⟨?_, trivial⟩
  have here := along (window.view t)
  unfold alongside
  dsimp only
  rw [window.view_put]
  exact here

theorem steady_sync {f : σ → Except ε α × σ} (along : ∀ s result s', f s = (result, s') → R s s') :
    Steady window R (sync f : Coro σ Op Ans ε α) := by
  intro t
  refine ⟨?_, trivial⟩
  have here := along (window.view t) _ _ rfl
  unfold alongside
  dsimp only
  rw [window.view_put]
  exact here

theorem Steady.bindResult {c : Coro σ Op Ans ε α} {f : Except ε α → Coro σ Op Ans ε β} (first : Steady window R c)
    (next : ∀ result, Steady window R (f result)) : Steady window R (c.bindResult f) :=
  fun t => safe_bindResult.mpr ((first t).mono fun result t' _ => next result t')

theorem Steady.bind {c : Coro σ Op Ans ε α} {f : α → Coro σ Op Ans ε β} (first : Steady window R c)
    (next : ∀ a, Steady window R (f a)) : Steady window R (c >>= f) := by
  refine first.bindResult fun result => ?_
  cases result with
  | ok a => exact next a
  | error e => exact steady_raise e

theorem Steady.attempt {c : Coro σ Op Ans ε α} (first : Steady window R c) : Steady window R c.attempt :=
  first.bindResult fun result => steady_pure result

theorem Steady.catchError {c : Coro σ Op Ans ε α} {handler : ε → Coro σ Op Ans ε α} (first : Steady window R c)
    (handles : ∀ e, Steady window R (handler e)) : Steady window R (c.catchError handler) := by
  refine first.bindResult fun result => ?_
  cases result with
  | ok a => exact steady_pure a
  | error e => exact handles e

/-- A steady program that has stopped is steady in what remains of it. -/
theorem Steady.advances {c : Coro σ Op Ans ε α} {t t' : τ} {outcome : Outcome σ Op Ans ε α} (steady : Steady window R c)
    (run : Advances window c t outcome t') : Relation.ReflTransGen R (window.view t) (window.view t') ∧
      ∀ op k, outcome = .waiting op k → ∀ answer, Steady window R (k answer) := by
  obtain ⟨updates, held⟩ := (steady t).advances run
  refine ⟨Relation.ReflTransGen.lift window.view (fun _ _ along => along) _ _ updates, fun op k same answer t₁ => ?_⟩
  subst same
  exact held.2 answer t₁ trivial

end Steady

end Coro
