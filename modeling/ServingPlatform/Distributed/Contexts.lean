import Mathlib.Data.List.Basic
import Mathlib.Data.Rat.Defs
import ServingPlatform.Errors

namespace ServingPlatform

inductive DistributedBackend
  | nccl
  | gloo
  deriving DecidableEq, Repr

def DistributedBackend.value : DistributedBackend → String
  | .nccl => "nccl"
  | .gloo => "gloo"

/-- The configuration, with the checks of `__post_init__`. -/
structure DistributedConfig where
  worldSize : Int
  rank : Int
  localRank : Int
  backend : DistributedBackend
  initMethod : String
  timeoutSeconds : Rat
  inhabited : 0 < worldSize
  ranked : 0 ≤ rank ∧ rank < worldSize
  placed : 0 ≤ localRank
  reachable : initMethod ≠ ""
  timed : 0 < timeoutSeconds

def DistributedConfig.enabled (config : DistributedConfig) : Bool := 1 < config.worldSize

/-- What `torch.distributed` tells of the default process group. -/
structure ProcessGroup where
  worldSize : Int
  rank : Int
  backend : String
  deriving DecidableEq, Repr

def ProcessGroup.of (config : DistributedConfig) : ProcessGroup :=
  ⟨config.worldSize, config.rank, config.backend.value⟩

/-- The collectives of a context, with the tensor or the object that is handed over. -/
inductive Collective (τ : Type)
  | allReduceSum (tensor : τ)
  | broadcast (tensor : τ) (sourceRank : Int)
  | barrier
  | allGatherObjects (value : τ)

/-- `torch` as the contexts use it, on its own state. A process group is made
as it was asked for or not at all; nothing else makes or destroys one. -/
structure TorchDistributed (σ τ : Type) where
  distributedAvailable : σ → Bool
  cudaAvailable : σ → Bool
  ncclAvailable : σ → Bool
  deviceCount : σ → Int
  setDevice : Int → σ → Except Raised Unit × σ
  group : σ → Option ProcessGroup
  initProcessGroup : DistributedConfig → σ → Except Raised Unit × σ
  destroyProcessGroup : σ → Except Raised Unit × σ
  exchange : Collective τ → σ → Except Raised (List τ) × σ
  group_setDevice : ∀ device s, group (setDevice device s).2 = group s
  group_made : ∀ config s, group s = none → (initProcessGroup config s).1 = .ok () →
    group (initProcessGroup config s).2 = some (.of config)
  group_failed : ∀ config s raised, group s = none → (initProcessGroup config s).1 = .error raised →
    group (initProcessGroup config s).2 = none
  group_destroyed : ∀ s, (destroyProcessGroup s).1 = .ok () → group (destroyProcessGroup s).2 = none
  group_undestroyed : ∀ s raised, (destroyProcessGroup s).1 = .error raised →
    group (destroyProcessGroup s).2 = group s
  group_exchange : ∀ op s, group (exchange op s).2 = group s

structure DistributedStatus where
  enabled : Bool
  initialized : Bool
  ownsProcessGroup : Bool
  backend : String
  worldSize : Int
  rank : Int
  localRank : Int
  deriving DecidableEq, Repr

/-- A context; `attached` says that it has hold of `torch.distributed`. -/
structure DistributedContext where
  config : DistributedConfig
  attached : Bool
  initialized : Bool
  ownsProcessGroup : Bool

namespace DistributedContext

variable {σ τ : Type} (torch : TorchDistributed σ τ) (c : DistributedContext) (s : σ)

/-- `__init__`. -/
def create (config : DistributedConfig) : DistributedContext := ⟨config, false, false, false⟩

def status : DistributedStatus :=
  ⟨c.config.enabled, c.initialized, c.ownsProcessGroup, c.config.backend.value, c.config.worldSize, c.config.rank,
    c.config.localRank⟩

/-- What `initialize` does before it looks for a process group: with NCCL, a device is selected. -/
def selectDevice : Except Raised Unit × σ :=
  if c.config.backend = .nccl then
    if torch.cudaAvailable s = false then (.error (runtimeError "NCCL requires CUDA; CPU fallback is forbidden"), s)
    else if torch.ncclAvailable s = false then (.error (runtimeError "this PyTorch build does not provide NCCL"), s)
    else if torch.deviceCount s ≤ c.config.localRank then
      (.error (runtimeError "LOCAL_RANK does not identify an available CUDA device"), s)
    else torch.setDevice c.config.localRank s
  else (.ok (), s)

/-- The group that there is has to match the configuration; where there is none, the context makes its own. -/
def joinGroup : Except Raised DistributedContext × σ :=
  match torch.group s with
  | some group =>
    if group ≠ .of c.config then (.error (runtimeError "existing process group does not match configuration"), s)
    else (.ok { c with
      attached := true
      initialized := true }, s)
  | none =>
    match torch.initProcessGroup c.config s with
    | (.error raised, s) => (.error raised, s)
    | (.ok (), s) => (.ok { c with
        attached := true
        initialized := true
        ownsProcessGroup := true }, s)

/-- `initialize`. -/
def initializeContext : Except Raised DistributedStatus × DistributedContext × σ :=
  if c.initialized then (.ok c.status, c, s)
  else if c.config.enabled = false then
    let c := { c with initialized := true }
    (.ok c.status, c, s)
  else if torch.distributedAvailable s = false then (.error (runtimeError "torch.distributed is unavailable"), c, s)
  else
    match c.selectDevice torch s with
    | (.error raised, s) => (.error raised, c, s)
    | (.ok (), s) =>
      match c.joinGroup torch s with
      | (.error raised, s) => (.error raised, c, s)
      | (.ok c, s) => (.ok c.status, c, s)

/-- A collective: alone, a context hands back what it was given. -/
def collective (op : Collective τ) : Except Raised (List τ) × σ :=
  if c.initialized = false then (.error (runtimeError "distributed context is not initialized"), s)
  else
    match op with
    | .broadcast tensor sourceRank =>
      if ¬(0 ≤ sourceRank ∧ sourceRank < c.config.worldSize) then
        (.error (valueError "broadcast source rank is outside the process group"), s)
      else if c.config.enabled then torch.exchange op s
      else (.ok [tensor], s)
    | .allReduceSum tensor => if c.config.enabled then torch.exchange op s else (.ok [tensor], s)
    | .barrier => if c.config.enabled then torch.exchange op s else (.ok [], s)
    | .allGatherObjects value => if c.config.enabled then torch.exchange op s else (.ok [value], s)

def detached : DistributedContext := ⟨c.config, false, false, false⟩

def shutdown : Except Raised Unit × DistributedContext × σ :=
  if c.ownsProcessGroup && c.attached then
    match torch.destroyProcessGroup s with
    | (.error raised, s) => (.error raised, c, s)
    | (.ok (), s) => (.ok (), c.detached, s)
  else (.ok (), c.detached, s)

end DistributedContext

/-- The contexts of a process, which share its `torch`. -/
structure DistributedProcess (σ : Type) where
  contexts : List DistributedContext
  torch : σ

inductive DistributedCall (τ : Type)
  | initializeContext
  | collective (op : Collective τ)
  | shutdown

namespace DistributedProcess

variable {σ τ : Type} (torch : TorchDistributed σ τ)

/-- A call on a context, with what becomes of the context and of `torch`. -/
def call (c : DistributedContext) (s : σ) : DistributedCall τ → DistributedContext × σ
  | .initializeContext => (c.initializeContext torch s).2
  | .collective op => (c, (c.collective torch s op).2)
  | .shutdown => (c.shutdown torch s).2

/-- The process calls one of its contexts. -/
def perform (p : DistributedProcess σ) (i : Nat) (call_ : DistributedCall τ) : DistributedProcess σ :=
  match p.contexts[i]? with
  | none => p
  | some c => ⟨p.contexts.set i (call torch c p.torch call_).1, (call torch c p.torch call_).2⟩

/-- No context has been initialised yet. -/
def Fresh (p : DistributedProcess σ) : Prop := ∀ c ∈ p.contexts, ∃ config, c = .create config

/-- The runs of a process whose calls are all allowed. -/
inductive Reach (Allowed : DistributedProcess σ → Nat → DistributedCall τ → Prop) (start : DistributedProcess σ) :
    DistributedProcess σ → Prop
  | start : Reach Allowed start start
  | perform {p : DistributedProcess σ} (i : Nat) (call_ : DistributedCall τ) :
      Reach Allowed start p → Allowed p i call_ → Reach Allowed start (p.perform torch i call_)

/-- An owner shuts down only when it is the last context in its group. -/
def OwnersLeaveLast (p : DistributedProcess σ) (i : Nat) (call_ : DistributedCall τ) : Prop :=
  match call_ with
  | .shutdown => ∀ c, p.contexts[i]? = some c → c.ownsProcessGroup = true → ∀ j c', p.contexts[j]? = some c' →
      c'.initialized = true → c'.config.enabled = true → j = i
  | _ => True

/-- What a call can do to its context and to the process group. -/
inductive Effect (c : DistributedContext) (s : σ) : DistributedCall τ → DistributedContext → σ → Prop
  | kept {call_ : DistributedCall τ} {s' : σ} : torch.group s' = torch.group s → Effect c s call_ c s'
  | alone {call_ : DistributedCall τ} : c.initialized = false → c.config.enabled = false →
      Effect c s call_ { c with initialized := true } s
  | joined {call_ : DistributedCall τ} {s' : σ} : c.initialized = false → c.config.enabled = true →
      torch.group s = some (.of c.config) → torch.group s' = torch.group s →
      Effect c s call_ { c with attached := true, initialized := true } s'
  | made {call_ : DistributedCall τ} {s' : σ} : c.initialized = false → c.config.enabled = true →
      torch.group s = none → torch.group s' = some (.of c.config) →
      Effect c s call_ { c with attached := true, initialized := true, ownsProcessGroup := true } s'
  | left : c.ownsProcessGroup = false ∨ c.attached = false → Effect c s .shutdown c.detached s
  | destroyed {s' : σ} : c.ownsProcessGroup = true → torch.group s' = none → Effect c s .shutdown c.detached s'

section Calls

theorem group_selectDevice (c : DistributedContext) (s : σ) : torch.group (c.selectDevice torch s).2 = torch.group s := by
  unfold DistributedContext.selectDevice
  split_ifs
  · rfl
  · rfl
  · rfl
  · exact torch.group_setDevice _ _
  · rfl

/-- A context joins a group that matches, or makes one where there is none. -/
theorem joinGroup_cases (c : DistributedContext) (s : σ) :
    (∃ raised s', c.joinGroup torch s = (.error raised, s') ∧ torch.group s' = torch.group s) ∨
    (∃ c', c.joinGroup torch s = (.ok c', s) ∧ torch.group s = some (.of c.config) ∧
      c' = { c with
        attached := true
        initialized := true }) ∨
    ∃ c' s', c.joinGroup torch s = (.ok c', s') ∧ torch.group s = none ∧ torch.group s' = some (.of c.config) ∧
      c' = { c with
        attached := true
        initialized := true
        ownsProcessGroup := true } := by
  unfold DistributedContext.joinGroup
  cases found : torch.group s with
  | some group =>
    by_cases differs : group ≠ .of c.config
    · exact Or.inl ⟨_, s, if_pos differs, found⟩
    · rw [not_not.mp differs] at found ⊢
      exact Or.inr (Or.inl ⟨_, if_neg (not_not.mpr rfl), rfl, rfl⟩)
  | none =>
    rcases run : torch.initProcessGroup c.config s with ⟨raised | done, s'⟩
    · have still := torch.group_failed c.config s raised found (by rw [run])
      rw [run] at still
      exact Or.inl ⟨raised, s', rfl, still⟩
    · have created := torch.group_made c.config s found (by rw [run])
      rw [run] at created
      exact Or.inr (Or.inr ⟨_, s', rfl, rfl, created, rfl⟩)

theorem initializeContext_effect (c : DistributedContext) (s : σ) :
    Effect torch c s .initializeContext (c.initializeContext torch s).2.1 (c.initializeContext torch s).2.2 := by
  unfold DistributedContext.initializeContext
  by_cases already : c.initialized = true
  · rw [if_pos already]
    exact .kept rfl
  have fresh : c.initialized = false := by simpa using already
  rw [if_neg already]
  by_cases single : c.config.enabled = false
  · rw [if_pos single]
    exact .alone fresh single
  have enabled : c.config.enabled = true := by simpa using single
  rw [if_neg single]
  by_cases unavailable : torch.distributedAvailable s = false
  · rw [if_pos unavailable]
    exact .kept rfl
  rw [if_neg unavailable]
  have same := group_selectDevice torch c s
  rcases selected : c.selectDevice torch s with ⟨raised | done, s'⟩
  · rw [selected] at same
    exact .kept same
  rw [selected] at same
  rcases joinGroup_cases torch c s' with ⟨raised, s'', run, still⟩ | ⟨c', run, found, rfl⟩ |
    ⟨c', s'', run, missing, created, rfl⟩
  · simp only [run]
    exact .kept (still.trans same)
  · simp only [run]
    exact .joined fresh enabled (same.symm.trans found) same
  · simp only [run]
    exact .made fresh enabled (same.symm.trans missing) created

/-- A collective that gets to `torch` is one of an initialised context that is not alone. -/
theorem collective_cases (c : DistributedContext) (s : σ) (op : Collective τ) :
    (∃ result, c.collective torch s op = (result, s)) ∨
    (c.collective torch s op = torch.exchange op s ∧ c.initialized = true ∧ c.config.enabled = true ∧
      ∀ tensor sourceRank, op = .broadcast tensor sourceRank → 0 ≤ sourceRank ∧ sourceRank < c.config.worldSize) := by
  unfold DistributedContext.collective
  by_cases outside : c.initialized = false
  · exact Or.inl ⟨_, if_pos outside⟩
  have entered : c.initialized = true := by simpa using outside
  rw [if_neg outside]
  by_cases enabled : c.config.enabled = true
  · cases op with
    | broadcast tensor sourceRank =>
      by_cases foreign : ¬(0 ≤ sourceRank ∧ sourceRank < c.config.worldSize)
      · exact Or.inl ⟨_, if_pos foreign⟩
      · refine Or.inr ⟨(if_neg foreign).trans (if_pos enabled), entered, enabled, fun _ _ same => ?_⟩
        cases same
        exact not_not.mp foreign
    | allReduceSum tensor => exact Or.inr ⟨if_pos enabled, entered, enabled, fun _ _ same => by cases same⟩
    | barrier => exact Or.inr ⟨if_pos enabled, entered, enabled, fun _ _ same => by cases same⟩
    | allGatherObjects value => exact Or.inr ⟨if_pos enabled, entered, enabled, fun _ _ same => by cases same⟩
  · cases op with
    | broadcast tensor sourceRank =>
      by_cases foreign : ¬(0 ≤ sourceRank ∧ sourceRank < c.config.worldSize)
      · exact Or.inl ⟨_, if_pos foreign⟩
      · exact Or.inl ⟨_, (if_neg foreign).trans (if_neg enabled)⟩
    | allReduceSum tensor => exact Or.inl ⟨_, if_neg enabled⟩
    | barrier => exact Or.inl ⟨_, if_neg enabled⟩
    | allGatherObjects value => exact Or.inl ⟨_, if_neg enabled⟩

theorem group_collective (c : DistributedContext) (s : σ) (op : Collective τ) :
    torch.group (c.collective torch s op).2 = torch.group s := by
  rcases collective_cases torch c s op with ⟨result, run⟩ | ⟨run, -⟩
  · rw [run]
  · rw [run, torch.group_exchange]

theorem shutdown_effect (c : DistributedContext) (s : σ) :
    Effect torch c s .shutdown (c.shutdown torch s).2.1 (c.shutdown torch s).2.2 := by
  unfold DistributedContext.shutdown
  cases owned : c.ownsProcessGroup with
  | false => exact .left (Or.inl owned)
  | true =>
    cases held : c.attached with
    | false => exact .left (Or.inr held)
    | true =>
      rcases run : torch.destroyProcessGroup s with ⟨raised | done, s'⟩
      · have still := torch.group_undestroyed s raised (by rw [run])
        rw [run] at still
        exact .kept still
      · have gone := torch.group_destroyed s (by rw [run])
        rw [run] at gone
        exact .destroyed owned gone

theorem call_effect (c : DistributedContext) (s : σ) (call_ : DistributedCall τ) :
    Effect torch c s call_ (call torch c s call_).1 (call torch c s call_).2 := by
  cases call_ with
  | initializeContext => exact initializeContext_effect torch c s
  | collective op => exact .kept (group_collective torch c s op)
  | shutdown => exact shutdown_effect torch c s

end Calls

section Runs

variable {torch} {Allowed : DistributedProcess σ → Nat → DistributedCall τ → Prop} {start p : DistributedProcess σ}

/-- Whoever owns the process group is in it. -/
structure Owned (torch : TorchDistributed σ τ) (p : DistributedProcess σ) : Prop where
  owners : ∀ (i : Nat) c, p.contexts[i]? = some c → c.ownsProcessGroup = true → c.attached = true ∧ c.initialized = true ∧
    c.config.enabled = true ∧ torch.group p.torch = some (.of c.config)
  single : ∀ (i j : Nat) c c', p.contexts[i]? = some c → p.contexts[j]? = some c' → c.ownsProcessGroup = true →
    c'.ownsProcessGroup = true → i = j

/-- The contexts of the process are in the group that they are configured for. -/
def Matching (torch : TorchDistributed σ τ) (p : DistributedProcess σ) : Prop :=
  ∀ (i : Nat) c, p.contexts[i]? = some c → c.initialized = true → c.config.enabled = true →
    torch.group p.torch = some (.of c.config)

/-- The group was there before the contexts were. -/
def Foreign (torch : TorchDistributed σ τ) (g : ProcessGroup) (p : DistributedProcess σ) : Prop :=
  torch.group p.torch = some g ∧ ∀ (i : Nat) c, p.contexts[i]? = some c → c.ownsProcessGroup = false

/-- What holds of the contexts that are not called still holds afterwards. -/
theorem perform_cases (torch : TorchDistributed σ τ) (p : DistributedProcess σ) (i : Nat) (call_ : DistributedCall τ) :
    p.perform torch i call_ = p ∨ ∃ c c' s', p.contexts[i]? = some c ∧ Effect torch c p.torch call_ c' s' ∧
      (p.perform torch i call_).torch = s' ∧ ∀ j x, (p.perform torch i call_).contexts[j]? = some x →
        j = i ∧ x = c' ∨ j ≠ i ∧ p.contexts[j]? = some x := by
  cases found : p.contexts[i]? with
  | none => exact Or.inl (by rw [perform, found])
  | some c =>
    refine Or.inr ⟨c, _, _, rfl, call_effect torch c p.torch call_, by rw [perform, found], fun j x listed => ?_⟩
    rw [perform, found] at listed
    by_cases here : j = i
    · subst here
      rw [List.getElem?_set_self (List.getElem?_eq_some_iff.mp found).1] at listed
      exact Or.inl ⟨rfl, (Option.some.inj listed).symm⟩
    · rw [List.getElem?_set_ne (Ne.symm here)] at listed
      exact Or.inr ⟨here, listed⟩

theorem Foreign.perform {g : ProcessGroup} (foreign : Foreign torch g p) (i : Nat) (call_ : DistributedCall τ) :
    Foreign torch g (p.perform torch i call_) := by
  rcases perform_cases torch p i call_ with same | ⟨c, c', s', found, effect, after, others⟩
  · rw [same]
    exact foreign
  have unowned := foreign.2 i c found
  have both : torch.group s' = some g ∧ c'.ownsProcessGroup = false := by
    cases effect with
    | kept still => exact ⟨still.trans foreign.1, unowned⟩
    | alone => exact ⟨foreign.1, unowned⟩
    | joined _ _ _ still => exact ⟨still.trans foreign.1, unowned⟩
    | made _ _ missing => cases missing.symm.trans foreign.1
    | left => exact ⟨foreign.1, rfl⟩
    | destroyed owner => cases owner.symm.trans unowned
  refine ⟨by rw [after, both.1], fun j x listed => ?_⟩
  rcases others j x listed with ⟨-, rfl⟩ | ⟨-, listed⟩
  · exact both.2
  · exact foreign.2 j x listed

theorem Owned.perform (owned : Owned torch p) (i : Nat) (call_ : DistributedCall τ) :
    Owned torch (p.perform torch i call_) := by
  rcases perform_cases torch p i call_ with same | ⟨c, c', s', found, effect, after, others⟩
  · rw [same]
    exact owned
  -- The group changes only when nobody owns it, or with its one owner.
  have step : (torch.group s' = torch.group p.torch ∧ (c'.ownsProcessGroup = true → c = c' ∨ c.ownsProcessGroup = true ∧
      c'.attached = true ∧ c'.initialized = true ∧ c'.config = c.config)) ∨
      (∀ j x, j ≠ i → p.contexts[j]? = some x → x.ownsProcessGroup = false) ∧ (c'.ownsProcessGroup = true →
        c'.attached = true ∧ c'.initialized = true ∧ c'.config.enabled = true ∧ torch.group s' = some (.of c'.config)) := by
    cases effect with
    | kept still => exact Or.inl ⟨still, fun _ => Or.inl rfl⟩
    | alone fresh _ => exact Or.inl ⟨rfl, fun owner => Or.inr ⟨owner, (owned.owners i c found owner).1, rfl, rfl⟩⟩
    | joined _ _ _ still => exact Or.inl ⟨still, fun owner => Or.inr ⟨owner, rfl, rfl, rfl⟩⟩
    | made _ enabled missing created =>
      refine Or.inr ⟨fun j x _ listed => ?_, fun _ => ⟨rfl, rfl, enabled, created⟩⟩
      refine Bool.eq_false_iff.mpr fun owner => ?_
      cases missing.symm.trans (owned.owners j x listed owner).2.2.2
    | left => exact Or.inl ⟨rfl, fun owner => by cases owner⟩
    | destroyed owner gone =>
      refine Or.inr ⟨fun j x other listed => ?_, fun owner' => by cases owner'⟩
      exact Bool.eq_false_iff.mpr fun owner' => other (owned.single j i x c listed found owner' owner)
  constructor
  · intro j x listed owner
    rw [after]
    rcases others j x listed with ⟨rfl, rfl⟩ | ⟨other, listed⟩
    · rcases step with ⟨still, kept⟩ | ⟨-, made⟩
      · rcases kept owner with rfl | ⟨before, attached, initialized, same⟩
        · rw [still]
          exact owned.owners _ _ found owner
        · have earlier := owned.owners _ _ found before
          rw [still, same]
          exact ⟨attached, initialized, earlier.2.2⟩
      · exact made owner
    · rcases step with ⟨still, -⟩ | ⟨nobody, -⟩
      · rw [still]
        exact owned.owners j x listed owner
      · cases owner.symm.trans (nobody j x other listed)
  · intro j k x y listed listed' owner owner'
    have before : ∀ m z, (p.perform torch i call_).contexts[m]? = some z → z.ownsProcessGroup = true → m = i ∨
        p.contexts[m]? = some z ∧ m ≠ i := by
      intro m z member _
      rcases others m z member with ⟨here, -⟩ | ⟨other, member⟩
      · exact Or.inl here
      · exact Or.inr ⟨member, other⟩
    have mixed : ∀ m z z', (p.perform torch i call_).contexts[i]? = some z → z.ownsProcessGroup = true → m ≠ i →
        p.contexts[m]? = some z' → z'.ownsProcessGroup = true → False := by
      intro m z z' here owner other member owner'
      rcases others i z here with ⟨-, rfl⟩ | ⟨absurd_, -⟩
      · rcases step with ⟨-, kept⟩ | ⟨nobody, -⟩
        · rcases kept owner with rfl | ⟨before, -⟩
          · exact other (owned.single m i z' _ member found owner' owner)
          · exact other (owned.single m i z' _ member found owner' before)
        · cases owner'.symm.trans (nobody m z' other member)
      · exact absurd_ rfl
    rcases before j x listed owner with rfl | ⟨member, other⟩ <;> rcases before k y listed' owner' with rfl | ⟨member', other'⟩
    · rfl
    · exact (mixed k x y listed owner other' member' owner').elim
    · exact (mixed j y x listed' owner' other member owner).elim
    · exact owned.single j k x y member member' owner owner'

/-- With an owner that leaves last, nobody stays behind without a group. -/
theorem Matching.perform (matching : Matching torch p) {i : Nat} {call_ : DistributedCall τ}
    (allowed : p.OwnersLeaveLast i call_) : Matching torch (p.perform torch i call_) := by
  rcases perform_cases torch p i call_ with same | ⟨c, c', s', found, effect, after, others⟩
  · rw [same]
    exact matching
  intro j x listed initialized enabled
  rw [after]
  cases effect with
  | kept still =>
    rw [still]
    rcases others j x listed with ⟨rfl, rfl⟩ | ⟨-, listed⟩
    · exact matching _ _ found initialized enabled
    · exact matching j x listed initialized enabled
  | alone _ single =>
    rcases others j x listed with ⟨rfl, rfl⟩ | ⟨-, listed⟩
    · cases single.symm.trans enabled
    · exact matching j x listed initialized enabled
  | joined _ _ present still =>
    rw [still]
    rcases others j x listed with ⟨rfl, rfl⟩ | ⟨-, listed⟩
    · exact present
    · exact matching j x listed initialized enabled
  | made _ _ missing created =>
    rcases others j x listed with ⟨rfl, rfl⟩ | ⟨-, listed⟩
    · exact created
    · cases missing.symm.trans (matching j x listed initialized enabled)
  | left =>
    rcases others j x listed with ⟨rfl, rfl⟩ | ⟨-, listed⟩
    · cases initialized
    · exact matching j x listed initialized enabled
  | destroyed owner =>
    rcases others j x listed with ⟨rfl, rfl⟩ | ⟨other, listed⟩
    · cases initialized
    · exact absurd (allowed c found owner j x listed initialized enabled) other

theorem Fresh.unowned (fresh : start.Fresh) {i : Nat} {c : DistributedContext} (found : start.contexts[i]? = some c) :
    c.initialized = false ∧ c.ownsProcessGroup = false := by
  obtain ⟨config, rfl⟩ := fresh c (List.mem_of_getElem? found)
  exact ⟨rfl, rfl⟩

theorem Reach.owned (fresh : start.Fresh) (reached : Reach torch Allowed start p) : Owned torch p := by
  induction reached with
  | start =>
    refine ⟨fun i c found owner => ?_, fun i j c c' found _ owner _ => ?_⟩
    · cases owner.symm.trans (fresh.unowned found).2
    · cases owner.symm.trans (fresh.unowned found).2
  | perform i call_ _ _ ih => exact ih.perform i call_

theorem Reach.foreign {g : ProcessGroup} (fresh : start.Fresh) (reached : Reach torch Allowed start p)
    (present : torch.group start.torch = some g) : Foreign torch g p := by
  induction reached with
  | start => exact ⟨present, fun _ _ found => (fresh.unowned found).2⟩
  | perform i call_ _ _ ih => exact ih.perform i call_

theorem Reach.matching (fresh : start.Fresh) (reached : Reach torch Allowed start p)
    (orderly : ∀ p i call_, Allowed p i call_ → p.OwnersLeaveLast i call_) : Matching torch p := by
  induction reached with
  | start =>
    intro i c found initialized _
    cases initialized.symm.trans (fresh.unowned found).1
  | perform i call_ _ allowed ih => exact ih.perform (orderly _ i call_ allowed)

/-- In every run, at most one context owns the process group, which it made as
it is configured, and a group that was there before stays. Where owners leave
last, a collective that gets to `torch` is one in the group that the context is
configured for, from a rank of that group. -/
theorem contexts_share_group (fresh : start.Fresh) (reached : Reach torch Allowed start p) :
    (∀ (i j : Nat) c c', p.contexts[i]? = some c → p.contexts[j]? = some c' → c.ownsProcessGroup = true →
      c'.ownsProcessGroup = true → i = j ∧ torch.group p.torch = some (.of c.config)) ∧
    (∀ g, torch.group start.torch = some g → torch.group p.torch = some g ∧
      ∀ c ∈ p.contexts, c.ownsProcessGroup = false) ∧
    ((∀ p i call_, Allowed p i call_ → p.OwnersLeaveLast i call_) → ∀ c ∈ p.contexts, ∀ op : Collective τ,
      (∃ result, c.collective torch p.torch op = (result, p.torch)) ∨
      (c.collective torch p.torch op = torch.exchange op p.torch ∧ torch.group p.torch = some (.of c.config) ∧
        ∀ tensor sourceRank, op = .broadcast tensor sourceRank → 0 ≤ sourceRank ∧ sourceRank < c.config.worldSize)) := by
  have owned := reached.owned fresh
  refine ⟨fun i j c c' found found' owner owner' => ⟨owned.single i j c c' found found' owner owner',
    (owned.owners i c found owner).2.2.2⟩, fun g present => ?_, fun orderly c member op => ?_⟩
  · have foreign := reached.foreign fresh present
    refine ⟨foreign.1, fun c member => ?_⟩
    obtain ⟨i, found⟩ := List.mem_iff_getElem?.mp member
    exact foreign.2 i c found
  · obtain ⟨i, found⟩ := List.mem_iff_getElem?.mp member
    rcases collective_cases torch c p.torch op with alone | ⟨run, initialized, enabled, ranked⟩
    · exact Or.inl alone
    · exact Or.inr ⟨run, reached.matching fresh orderly i c found initialized enabled, ranked⟩

end Runs

end DistributedProcess

namespace DistributedProcess

namespace Sample

/-- Two ranks without devices; the state of `torch` is its process group. -/
def twoRanks : TorchDistributed (Option ProcessGroup) Int where
  distributedAvailable _ := true
  cudaAvailable _ := false
  ncclAvailable _ := false
  deviceCount _ := 0
  setDevice _ s := (.ok (), s)
  group s := s
  initProcessGroup config _ := (.ok (), some (.of config))
  destroyProcessGroup _ := (.ok (), none)
  exchange _ s := (.ok [], s)
  group_setDevice _ _ := rfl
  group_made _ _ _ _ := rfl
  group_failed _ _ _ _ raised := by cases raised
  group_destroyed _ _ := rfl
  group_undestroyed _ _ raised := by cases raised
  group_exchange _ _ := rfl

def config : DistributedConfig := ⟨2, 1, 0, .gloo, "env://", 60, by decide, by decide, by decide, by decide, by decide⟩

def process : DistributedProcess (Option ProcessGroup) := ⟨[.create config, .create config], none⟩

/-- Both contexts are initialised; the first of them owns the group. -/
def shared : DistributedProcess (Option ProcessGroup) :=
  (process.perform twoRanks 0 .initializeContext).perform twoRanks 1 .initializeContext

end Sample

open Sample in
theorem contexts_share_group_pair : twoRanks.group shared.torch = some (.of config) ∧
    ∀ c ∈ shared.contexts, ∀ op : Collective Int,
      (∃ result, c.collective twoRanks shared.torch op = (result, shared.torch)) ∨
      (c.collective twoRanks shared.torch op = twoRanks.exchange op shared.torch ∧
        twoRanks.group shared.torch = some (.of c.config) ∧ ∀ tensor sourceRank, op = .broadcast tensor sourceRank →
          0 ≤ sourceRank ∧ sourceRank < c.config.worldSize) := by
  have fresh : process.Fresh := by
    intro c member
    rcases List.mem_pair.mp member with rfl | rfl <;> exact ⟨config, rfl⟩
  have reached : Reach twoRanks OwnersLeaveLast process shared :=
    .perform 1 .initializeContext (.perform 0 .initializeContext .start trivial) trivial
  obtain ⟨owners, -, collectives⟩ := contexts_share_group fresh reached
  exact ⟨(owners 0 0 _ _ rfl rfl rfl rfl).2, collectives fun _ _ _ allowed => allowed⟩

end DistributedProcess

end ServingPlatform
