import Mathlib

/-! Callback code on one serial queue. A block of code runs to its end without
interruption; what it does outside its own captured variables is the list of its
effects, in call order: actions on shared services, and calls of the completion
handler it was given. A block may trap instead, which ends the process. Handing
a closure to an operation is running the closure at each completion effect. -/
namespace Callbacks

variable {α σ ρ υ τ : Type}

inductive Effect (α ρ : Type) where
  | act (action : α)
  | complete (response : ρ)
  deriving DecidableEq, Repr

abbrev Out (α σ ρ : Type) := σ × List (Effect α ρ)

def completions : List (Effect α ρ) → List ρ
  | [] => []
  | .act _ :: rest => completions rest
  | .complete r :: rest => r :: completions rest

def actions : List (Effect α ρ) → List α
  | [] => []
  | .act a :: rest => a :: actions rest
  | .complete _ :: rest => actions rest

@[simp] theorem completionsNil : completions ([] : List (Effect α ρ)) = [] := rfl
@[simp] theorem completionsAct (a : α) (rest : List (Effect α ρ)) :
    completions (.act a :: rest) = completions rest := rfl
@[simp] theorem completionsComplete (r : ρ) (rest : List (Effect α ρ)) :
    completions (.complete r :: rest) = r :: completions rest := rfl
@[simp] theorem actionsNil : actions ([] : List (Effect α ρ)) = [] := rfl
@[simp] theorem actionsAct (a : α) (rest : List (Effect α ρ)) :
    actions (.act a :: rest) = a :: actions rest := rfl
@[simp] theorem actionsComplete (r : ρ) (rest : List (Effect α ρ)) :
    actions (.complete r :: rest) = actions rest := rfl

theorem completionsAppend (xs ys : List (Effect α ρ)) :
    completions (xs ++ ys) = completions xs ++ completions ys := by
  induction xs with
  | nil => rfl
  | cons e xs ih => cases e <;> simp [ih]

theorem actionsAppend (xs ys : List (Effect α ρ)) : actions (xs ++ ys) = actions xs ++ actions ys := by
  induction xs with
  | nil => rfl
  | cons e xs ih => cases e <;> simp [ih]

def transform (closure : ρ → Except τ υ) : List (Effect α ρ) → Except τ (List (Effect α υ))
  | [] => .ok []
  | .act a :: rest => do
      let out ← transform closure rest
      .ok (.act a :: out)
  | .complete r :: rest => do
      let answer ← closure r
      let out ← transform closure rest
      .ok (.complete answer :: out)

/- A closure over captured variables of type σ, which may itself start operations. -/
def handle (closure : σ → ρ → Except τ (Out α σ υ)) :
    σ → List (Effect α ρ) → Except τ (Out α σ υ)
  | s, [] => .ok (s,[])
  | s, .act a :: rest => do
      let (s,out) ← handle closure s rest
      .ok (s,.act a :: out)
  | s, .complete r :: rest => do
      let (s,first) ← closure s r
      let (s,out) ← handle closure s rest
      .ok (s,first ++ out)

theorem okBind {a : Except τ υ} {f : υ → Except τ ρ} {r : ρ} (ok : (a >>= f) = .ok r) :
    ∃ x, a = .ok x ∧ f x = .ok r := by
  cases a with
  | error t => cases ok
  | ok x => exact ⟨x,rfl,ok⟩

theorem handleKeeps (P : σ → Prop) {closure : σ → ρ → Except τ (Out α σ υ)}
    (kept : ∀ s r next out, P s → closure s r = .ok (next,out) → P next)
    {s last : σ} {es : List (Effect α ρ)} {out : List (Effect α υ)} (held : P s)
    (ran : handle closure s es = .ok (last,out)) : P last := by
  induction es generalizing s out with
  | nil =>
    cases ran
    exact held
  | cons e es ih =>
    cases e with
    | act a =>
      obtain ⟨_,rest,same⟩ := okBind ran
      cases same
      exact ih held rest
    | complete r =>
      obtain ⟨_,first,more⟩ := okBind ran
      obtain ⟨_,rest,same⟩ := okBind more
      cases same
      exact ih (kept _ _ _ _ held first) rest

theorem handleQuiet {closure : σ → ρ → Except τ (Out α σ υ)}
    (quiet : ∀ s r next out, closure s r = .ok (next,out) → completions out = [])
    {s last : σ} {es : List (Effect α ρ)} {out : List (Effect α υ)}
    (ran : handle closure s es = .ok (last,out)) : completions out = [] := by
  induction es generalizing s out with
  | nil =>
    cases ran
    rfl
  | cons e es ih =>
    cases e with
    | act a =>
      obtain ⟨_,rest,same⟩ := okBind ran
      cases same
      rw [completionsAct]
      exact ih rest
    | complete r =>
      obtain ⟨_,first,more⟩ := okBind ran
      obtain ⟨_,rest,same⟩ := okBind more
      cases same
      rw [completionsAppend,quiet _ _ _ _ first,ih rest]
      rfl

theorem transformActions {closure : ρ → Except τ υ} {es : List (Effect α ρ)} {out : List (Effect α υ)}
    (ran : transform closure es = .ok out) : actions out = actions es := by
  induction es generalizing out with
  | nil =>
    cases ran
    rfl
  | cons e es ih =>
    cases e with
    | act a =>
      obtain ⟨_,rest,same⟩ := okBind ran
      cases same
      rw [actionsAct,actionsAct,ih rest]
    | complete r =>
      obtain ⟨_,_,more⟩ := okBind ran
      obtain ⟨_,rest,same⟩ := okBind more
      cases same
      rw [actionsComplete,actionsComplete,ih rest]

theorem handleFolds (f : β → α → β) {closure : σ → ρ → Except τ (Out α σ υ)}
    (neutral : ∀ s r next out, closure s r = .ok (next,out) → ∀ b, (actions out).foldl f b = b)
    {s last : σ} {es : List (Effect α ρ)} {out : List (Effect α υ)}
    (ran : handle closure s es = .ok (last,out)) (b : β) : (actions out).foldl f b = (actions es).foldl f b := by
  induction es generalizing s out b with
  | nil =>
    cases ran
    rfl
  | cons e es ih =>
    cases e with
    | act a =>
      obtain ⟨_,rest,same⟩ := okBind ran
      cases same
      exact ih rest (f b a)
    | complete r =>
      obtain ⟨_,first,more⟩ := okBind ran
      obtain ⟨_,rest,same⟩ := okBind more
      cases same
      rw [actionsAppend,List.foldl_append,neutral _ _ _ _ first]
      exact ih rest b

/- A completion handler that was passed as nil. -/
def ignore : List (Effect α ρ) → List (Effect α υ)
  | [] => []
  | .act a :: rest => .act a :: ignore rest
  | .complete _ :: rest => ignore rest

@[simp] theorem completionsIgnore (es : List (Effect α ρ)) :
    completions (ignore es : List (Effect α υ)) = [] := by
  induction es with
  | nil => rfl
  | cons e es ih => cases e <;> simpa [ignore] using ih

@[simp] theorem actionsIgnore (es : List (Effect α ρ)) :
    actions (ignore es : List (Effect α υ)) = actions es := by
  induction es with
  | nil => rfl
  | cons e es ih => cases e <;> simpa [ignore] using ih

def relabel (f : ρ → υ) : List (Effect α ρ) → List (Effect α υ)
  | [] => []
  | .act a :: rest => .act a :: relabel f rest
  | .complete r :: rest => .complete (f r) :: relabel f rest

@[simp] theorem completionsRelabel (f : ρ → υ) (es : List (Effect α ρ)) :
    completions (relabel f es) = (completions es).map f := by
  induction es with
  | nil => rfl
  | cons e es ih => cases e <;> simp [relabel,ih]

@[simp] theorem actionsRelabel (f : ρ → υ) (es : List (Effect α ρ)) :
    actions (relabel f es) = actions es := by
  induction es with
  | nil => rfl
  | cons e es ih => cases e <;> simp [relabel,ih]

theorem completionsMap (rs : List ρ) : completions (rs.map (.complete : ρ → Effect α ρ)) = rs := by
  induction rs with
  | nil => rfl
  | cons r rs ih => rw [List.map_cons,completionsComplete,ih]

theorem actionsMap (rs : List ρ) : actions (rs.map (.complete : ρ → Effect α ρ)) = [] := by
  induction rs with
  | nil => rfl
  | cons r rs ih => rw [List.map_cons,actionsComplete,ih]

/- A dispatch group. The notify block is submitted once, when the count is zero
at registration or first returns to zero after it; leaving an empty group is a
client error that the runtime does not survive. -/
inductive NotifyBlock where
  | unregistered
  | registered
  | submitted
  | finished
  deriving DecidableEq, Repr

structure DispatchGroup where
  count : Int
  notifyBlock : NotifyBlock
  deriving DecidableEq, Repr

def DispatchGroup.new : DispatchGroup := ⟨0,.unregistered⟩

def DispatchGroup.enter (g : DispatchGroup) : DispatchGroup := {g with count := g.count + 1}

def DispatchGroup.leave (g : DispatchGroup) : Option DispatchGroup :=
  if g.count ≤ 0 then none
  else if g.count = 1 ∧ g.notifyBlock = .registered then some ⟨0,.submitted⟩
  else some {g with count := g.count - 1}

def DispatchGroup.notify (g : DispatchGroup) : DispatchGroup :=
  {g with notifyBlock := if g.count = 0 then .submitted else .registered}

def DispatchGroup.run (g : DispatchGroup) : Option DispatchGroup :=
  if g.notifyBlock = .submitted then some {g with notifyBlock := .finished} else none

theorem runSource {g next : DispatchGroup} (ran : g.run = some next) :
    g.notifyBlock = .submitted ∧ next = ⟨g.count,.finished⟩ := by
  unfold DispatchGroup.run at ran
  split at ran <;> try contradiction
  cases Option.some.inj ran
  exact ⟨by assumption,rfl⟩

def Awaits (pending : Nat) (ran : Bool) (g : DispatchGroup) : Prop :=
  g.count = pending ∧ (0 < pending → ran = false ∧ g.notifyBlock = .registered) ∧
  (pending = 0 → g.notifyBlock = if ran then .finished else .submitted)

theorem awaitsNotify (g : DispatchGroup) (pending : Nat) (count : g.count = pending) :
    Awaits pending false g.notify := by
  refine ⟨count,?_,?_⟩
  · intro positive
    have busy : g.count ≠ 0 := by omega
    simp [DispatchGroup.notify,busy]
  · intro zero
    have idle : g.count = 0 := by omega
    simp [DispatchGroup.notify,idle]

theorem awaitsLeave {g : DispatchGroup} {pending : Nat} {ran : Bool}
    (awaits : Awaits (pending+1) ran g) :
    ∃ next, g.leave = some next ∧ Awaits pending false next := by
  obtain ⟨count,waiting,_⟩ := awaits
  obtain ⟨_,registered⟩ := waiting (by omega)
  unfold DispatchGroup.leave
  rw [if_neg (by omega)]
  by_cases last : pending = 0
  · subst last
    have one : g.count = 1 := by simpa using count
    rw [if_pos ⟨one,registered⟩]
    exact ⟨_,rfl,by simp [Awaits]⟩
  · have more : ¬ (g.count = 1 ∧ g.notifyBlock = .registered) := by omega
    rw [if_neg more]
    refine ⟨_,rfl,?_,?_,?_⟩
    · simp only [count]
      omega
    · intro _
      exact ⟨rfl,registered⟩
    · intro zero
      exact absurd zero last

theorem awaitsRun {g next : DispatchGroup} {pending : Nat} {ran : Bool}
    (awaits : Awaits pending ran g) (run : g.run = some next) :
    pending = 0 ∧ ran = false ∧ Awaits 0 true next := by
  obtain ⟨count,waiting,idle⟩ := awaits
  obtain ⟨submitted,rfl⟩ := runSource run
  have zero : pending = 0 := by
    rcases Nat.eq_zero_or_pos pending with zero | positive
    · exact zero
    · have registered := (waiting positive).2
      rw [submitted] at registered
      cases registered
  have block := idle zero
  rw [submitted] at block
  subst zero
  cases ran with
  | true => cases block
  | false => exact ⟨rfl,rfl,by simpa [Awaits] using count⟩

theorem awaitsIdle {g : DispatchGroup} {pending : Nat} {ran : Bool}
    (awaits : Awaits pending ran g) (idle : g.run = none) : pending ≠ 0 ∨ ran = true := by
  by_cases zero : pending = 0
  · right
    have block := awaits.2.2 zero
    cases ran with
    | true => rfl
    | false => simp [DispatchGroup.run,block] at idle
  · exact Or.inl zero

end Callbacks
