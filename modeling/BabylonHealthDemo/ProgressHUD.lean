import BabylonHealthDemo.ActivityIndicator

/-! SVProgressHUD as the app uses it: one shared view, shown and dismissed. Both
calls only queue a block on the main operation queue. A dismissal waits for its
delay, hides the background and fades out; its completion runs when the fade-out
ends, but only if nothing has shown the background again. A completion that is not
run then is never run. -/
namespace BabylonHealthDemo

inductive HUDOperation (κ : Type) where
  | showProgress
  | dismissWithDelay (delay : Nat) (completion : κ)

structure DelayedDismissal (κ : Type) where
  due : Nat
  completion : κ

/- Times are in milliseconds. -/
structure ProgressHUD (κ : Type) where
  now : Nat
  mainQueue : List (HUDOperation κ)
  delayed : List (DelayedDismissal κ)
  fadeOuts : List κ
  alpha : Nat

inductive HUDEvent where
  | wait (milliseconds : Nat)
  | operation
  | delayOver (index : Nat)
  | fadeOutEnded (index : Nat)
  deriving DecidableEq, Repr

variable {κ : Type}

namespace ProgressHUD

def sharedView : ProgressHUD κ := ⟨0,[],[],[],0⟩

def showProgress (h : ProgressHUD κ) : ProgressHUD κ :=
  {h with mainQueue := h.mainQueue ++ [.showProgress]}

def dismissWithDelay (h : ProgressHUD κ) (delay : Nat) (completion : κ) : ProgressHUD κ :=
  {h with mainQueue := h.mainQueue ++ [.dismissWithDelay delay completion]}

def fadeIn (h : ProgressHUD κ) : ProgressHUD κ := if h.alpha ≠ 1 then {h with alpha := 1} else h

/- What the run loop runs next, and the completions it runs. Delayed blocks that are
due run in any order. A fade-out ends when UIKit says so: after its duration, or
earlier when it is interrupted or has nothing to change. -/
def step (h : ProgressHUD κ) : HUDEvent → Option (ProgressHUD κ × List κ)
  | .wait milliseconds => some ({h with now := h.now + milliseconds},[])
  | .operation => match h.mainQueue with
    | [] => none
    | .showProgress :: rest => some (fadeIn {h with mainQueue := rest},[])
    | .dismissWithDelay delay completion :: rest =>
      some ({h with mainQueue := rest,delayed := h.delayed ++ [⟨h.now + delay,completion⟩]},[])
  | .delayOver index => do
    let dismissal ← h.delayed[index]?
    if dismissal.due ≤ h.now then
      some ({h with
        delayed := h.delayed.eraseIdx index,
        fadeOuts := h.fadeOuts ++ [dismissal.completion],
        alpha := 0},[])
    else none
  | .fadeOutEnded index => do
    let completion ← h.fadeOuts[index]?
    some ({h with fadeOuts := h.fadeOuts.eraseIdx index},if h.alpha = 0 then [completion] else [])

def Settled (h : ProgressHUD κ) : Prop := h.mainQueue = [] ∧ h.delayed = [] ∧ h.fadeOuts = []

def queued : HUDOperation κ → List κ
  | .showProgress => []
  | .dismissWithDelay _ completion => [completion]

def flight (h : ProgressHUD κ) : List κ :=
  h.mainQueue.flatMap queued ++ (h.delayed.map DelayedDismissal.completion ++ h.fadeOuts)

def dropped (h : ProgressHUD κ) : HUDEvent → List κ
  | .fadeOutEnded index => if h.alpha = 0 then [] else h.fadeOuts[index]?.toList
  | _ => []

end ProgressHUD

inductive HUDMoment where
  | shown
  | hidden
  | ended
  deriving DecidableEq, Repr

def ProgressHUD.moments (h : ProgressHUD κ) : HUDEvent → List HUDMoment
  | .operation => match h.mainQueue with
    | .showProgress :: _ => [.shown]
    | _ => []
  | .delayOver _ => [.hidden]
  | .fadeOutEnded _ => [.ended]
  | .wait _ => []

def lastChange (moments : List HUDMoment) : Option HUDMoment :=
  (moments.filter (fun moment => moment ≠ .ended)).getLast?

/- No fade-out ends while the HUD stands shown again. -/
def Undisturbed (moments : List HUDMoment) : Prop :=
  ∀ before ∈ moments.inits, before.getLast? = some .ended → lastChange before ≠ some .shown
instance (moments) : Decidable (Undisturbed moments) := by unfold Undisturbed; infer_instance

theorem lastChangeSnoc (moments : List HUDMoment) (moment : HUDMoment) :
    lastChange (moments ++ [moment]) = if moment = .ended then lastChange moments else some moment := by
  cases moment <;> simp [lastChange]

theorem undisturbedSnoc (moments : List HUDMoment) (moment : HUDMoment) :
    Undisturbed (moments ++ [moment]) ↔
      Undisturbed moments ∧ (moment = .ended → lastChange moments ≠ some .shown) := by
  simp only [Undisturbed,List.mem_inits,List.prefix_concat_iff,or_imp,forall_and,forall_eq,
    List.getLast?_concat,Option.some.injEq,lastChangeSnoc]
  rw [and_comm]
  refine and_congr_right fun _ => imp_congr_right fun same => ?_
  rw [if_pos same]

def AlphaAgrees (moments : List HUDMoment) (h : ProgressHUD κ) : Prop :=
  h.alpha = if lastChange moments = some .shown then 1 else 0

theorem alphaStep {moments : List HUDMoment} {h next : ProgressHUD κ} {e : HUDEvent} {ran : List κ}
    (agrees : AlphaAgrees moments h) (ok : h.step e = some (next,ran)) :
    AlphaAgrees (moments ++ h.moments e) next := by
  cases e with
  | wait _ =>
    cases Option.some.inj ok
    simpa [AlphaAgrees,ProgressHUD.moments] using agrees
  | operation =>
    simp only [ProgressHUD.step] at ok
    split at ok <;> try contradiction
    · rename_i rest queue
      cases Option.some.inj ok
      have one : (ProgressHUD.fadeIn {h with mainQueue := rest}).alpha = 1 := by
        unfold ProgressHUD.fadeIn
        split <;> simp_all
      simp [AlphaAgrees,ProgressHUD.moments,queue,lastChangeSnoc,one]
    · rename_i queue
      cases Option.some.inj ok
      simpa [AlphaAgrees,ProgressHUD.moments,queue] using agrees
  | delayOver index =>
    simp only [ProgressHUD.step,bind,Option.bind_eq_some_iff] at ok
    obtain ⟨dismissal,_,last⟩ := ok
    split at last <;> try contradiction
    cases Option.some.inj last
    simp [AlphaAgrees,ProgressHUD.moments,lastChangeSnoc]
  | fadeOutEnded index =>
    simp only [ProgressHUD.step,bind,Option.bind_eq_some_iff] at ok
    obtain ⟨completion,_,last⟩ := ok
    cases Option.some.inj last
    simpa [AlphaAgrees,ProgressHUD.moments,lastChangeSnoc] using agrees

theorem erasePerm {xs : List α} {index : Nat} {x : α} (found : xs[index]? = some x) :
    xs.Perm (x :: xs.eraseIdx index) := by
  obtain ⟨inside,same⟩ := List.getElem?_eq_some_iff.mp found
  exact same ▸ (List.getElem_cons_eraseIdx_perm inside).symm

theorem flightStep {h next : ProgressHUD κ} {e : HUDEvent} {ran : List κ}
    (ok : h.step e = some (next,ran)) : h.flight.Perm (next.flight ++ (ran ++ h.dropped e)) := by
  cases e with
  | wait _ =>
    cases Option.some.inj ok
    simp [ProgressHUD.flight,ProgressHUD.dropped]
  | operation =>
    simp only [ProgressHUD.step] at ok
    split at ok <;> try contradiction
    · rename_i rest queue
      cases Option.some.inj ok
      have same : (ProgressHUD.fadeIn {h with mainQueue := rest}).flight = h.flight := by
        unfold ProgressHUD.fadeIn
        split <;> simp [ProgressHUD.flight,queue,ProgressHUD.queued]
      simp [same,ProgressHUD.dropped]
    · rename_i delay completion rest queue
      cases Option.some.inj ok
      simp only [ProgressHUD.flight,ProgressHUD.dropped,queue,List.flatMap_cons,ProgressHUD.queued,
        List.map_append,List.map_cons,List.map_nil,List.append_nil,List.append_assoc,List.singleton_append]
      rw [← List.append_assoc,← List.append_assoc]
      exact List.perm_middle.symm
  | delayOver index =>
    simp only [ProgressHUD.step,bind,Option.bind_eq_some_iff] at ok
    obtain ⟨dismissal,found,last⟩ := ok
    split at last <;> try contradiction
    cases Option.some.inj last
    have moved := (erasePerm found).map DelayedDismissal.completion
    simp only [ProgressHUD.flight,ProgressHUD.dropped,List.append_nil]
    refine List.Perm.append_left _ ((moved.append_right _).trans ?_)
    rw [List.map_cons,List.cons_append,← List.append_assoc]
    exact (List.perm_append_singleton _ _).symm
  | fadeOutEnded index =>
    simp only [ProgressHUD.step,bind,Option.bind_eq_some_iff] at ok
    obtain ⟨completion,found,last⟩ := ok
    cases Option.some.inj last
    have decided : (if h.alpha = 0 then [completion] else []) ++ h.dropped (.fadeOutEnded index) =
        [completion] := by
      by_cases hidden : h.alpha = 0 <;> simp [ProgressHUD.dropped,hidden,found]
    rw [decided]
    simp only [ProgressHUD.flight,List.append_assoc]
    refine List.Perm.append_left _ (List.Perm.append_left _ ((erasePerm found).trans ?_))
    exact (List.perm_append_singleton _ _).symm

theorem droppedStep {moments : List HUDMoment} {h next : ProgressHUD κ} {e : HUDEvent} {ran : List κ}
    (agrees : AlphaAgrees moments h) (ok : h.step e = some (next,ran)) :
    Undisturbed (moments ++ h.moments e) ↔ Undisturbed moments ∧ h.dropped e = [] := by
  cases e with
  | wait _ => simp [ProgressHUD.moments,ProgressHUD.dropped]
  | operation =>
    simp only [ProgressHUD.moments,ProgressHUD.dropped]
    split <;> simp [undisturbedSnoc]
  | delayOver index => simp [ProgressHUD.moments,ProgressHUD.dropped,undisturbedSnoc]
  | fadeOutEnded index =>
    simp only [ProgressHUD.step,bind,Option.bind_eq_some_iff] at ok
    obtain ⟨completion,found,_⟩ := ok
    rw [AlphaAgrees] at agrees
    simp only [ProgressHUD.moments,ProgressHUD.dropped,undisturbedSnoc,found,agrees]
    by_cases shown : lastChange moments = some .shown <;> simp [shown]

theorem settledFlight {h : ProgressHUD κ} (settled : h.Settled) : h.flight = [] := by
  obtain ⟨queue,delayed,fadeOuts⟩ := settled
  simp [ProgressHUD.flight,queue,delayed,fadeOuts]

@[simp] theorem flightShow (h : ProgressHUD κ) : h.showProgress.flight = h.flight := by
  simp [ProgressHUD.flight,ProgressHUD.showProgress,ProgressHUD.queued]

theorem flightDismiss (h : ProgressHUD κ) (delay : Nat) (completion : κ) :
    (h.dismissWithDelay delay completion).flight.Perm (completion :: h.flight) := by
  simp only [ProgressHUD.flight,ProgressHUD.dismissWithDelay,List.flatMap_append,List.flatMap_singleton,
    ProgressHUD.queued,List.append_assoc,List.singleton_append]
  exact List.perm_middle

/- What keeps the HUD from staying up: while it shows, someone is still waiting or a
dismissal is ahead; and an appearance that ends the queue has someone waiting. -/
def ComesDown (awaited : Prop) (h : ProgressHUD κ) : Prop :=
  (h.alpha ≠ 0 → awaited ∨ (∃ delay completion, .dismissWithDelay delay completion ∈ h.mainQueue) ∨
    h.delayed ≠ []) ∧
  (h.mainQueue.getLast? = some .showProgress → awaited)

theorem comesDownShow (h : ProgressHUD κ) {awaited : Prop} (waits : awaited) :
    ComesDown awaited h.showProgress :=
  ⟨fun _ => Or.inl waits,fun _ => waits⟩

theorem comesDownDismiss (awaited : Prop) (h : ProgressHUD κ) (delay : Nat) (completion : κ) :
    ComesDown awaited (h.dismissWithDelay delay completion) := by
  refine ⟨fun _ => Or.inr (Or.inl ⟨delay,completion,?_⟩),?_⟩
  · simp [ProgressHUD.dismissWithDelay]
  · intro last
    simp [ProgressHUD.dismissWithDelay] at last

@[simp] theorem fadeInQueue (h : ProgressHUD κ) : h.fadeIn.mainQueue = h.mainQueue := by
  unfold ProgressHUD.fadeIn
  split <;> rfl

@[simp] theorem fadeInDelayed (h : ProgressHUD κ) : h.fadeIn.delayed = h.delayed := by
  unfold ProgressHUD.fadeIn
  split <;> rfl

theorem comesDownStep {awaited : Prop} {h next : ProgressHUD κ} {e : HUDEvent} {ran : List κ}
    (down : ComesDown awaited h) (ok : h.step e = some (next,ran)) : ComesDown awaited next := by
  obtain ⟨shown,trailing⟩ := down
  cases e with
  | wait _ =>
    cases Option.some.inj ok
    exact ⟨shown,trailing⟩
  | operation =>
    simp only [ProgressHUD.step] at ok
    split at ok <;> try contradiction
    · rename_i rest queue
      cases Option.some.inj ok
      rw [queue] at trailing
      refine ⟨fun _ => ?_,fun last => ?_⟩
      · rw [fadeInQueue]
        cases end_ : rest.getLast? with
        | none =>
          rw [List.getLast?_eq_none_iff.mp end_] at trailing
          exact Or.inl (trailing rfl)
        | some op =>
          cases op with
          | showProgress => exact Or.inl (trailing (by rw [List.getLast?_cons,end_]; rfl))
          | dismissWithDelay delay completion =>
            exact Or.inr (Or.inl ⟨delay,completion,List.mem_of_getLast? end_⟩)
      · rw [fadeInQueue] at last
        exact trailing (by rw [List.getLast?_cons,last]; rfl)
    · rename_i delay completion rest queue
      cases Option.some.inj ok
      rw [queue] at trailing
      refine ⟨fun _ => Or.inr (Or.inr (by simp)),fun last => trailing ?_⟩
      rw [List.getLast?_cons,last]
      rfl
  | delayOver index =>
    simp only [ProgressHUD.step,bind,Option.bind_eq_some_iff] at ok
    obtain ⟨dismissal,_,last⟩ := ok
    split at last <;> try contradiction
    cases Option.some.inj last
    exact ⟨fun up => absurd rfl up,trailing⟩
  | fadeOutEnded index =>
    simp only [ProgressHUD.step,bind,Option.bind_eq_some_iff] at ok
    obtain ⟨completion,_,last⟩ := ok
    cases Option.some.inj last
    exact ⟨shown,trailing⟩

theorem settledDown {awaited : Prop} {h : ProgressHUD κ} (down : ComesDown awaited h) (settled : h.Settled)
    (idle : ¬ awaited) : h.alpha = 0 := by
  by_contra up
  obtain ⟨queue,delayed,_⟩ := settled
  rcases down.1 up with waits | ⟨_,_,member⟩ | pending
  · exact idle waits
  · rw [queue] at member
    cases member
  · exact pending delayed

def HUDOperation.blocks : HUDOperation κ → Nat
  | .showProgress => 1
  | .dismissWithDelay _ _ => 3

def ProgressHUD.blocks (h : ProgressHUD κ) : Nat :=
  (h.mainQueue.map HUDOperation.blocks).sum + 2*h.delayed.length + h.fadeOuts.length

@[simp] theorem showBlocks (h : ProgressHUD κ) : h.showProgress.blocks = h.blocks + 1 := by
  simp only [ProgressHUD.showProgress,ProgressHUD.blocks,List.map_append,List.sum_append,List.map_singleton,
    List.sum_singleton,HUDOperation.blocks]
  omega

@[simp] theorem dismissBlocks (h : ProgressHUD κ) (delay : Nat) (completion : κ) :
    (h.dismissWithDelay delay completion).blocks = h.blocks + 3 := by
  simp only [ProgressHUD.dismissWithDelay,ProgressHUD.blocks,List.map_append,List.sum_append,List.map_singleton,
    List.sum_singleton,HUDOperation.blocks]
  omega

def HUDEvent.waits : HUDEvent → Bool
  | .wait _ => true
  | _ => false

theorem fadeInBlocks (h : ProgressHUD κ) : h.fadeIn.blocks = h.blocks := by
  unfold ProgressHUD.fadeIn
  split <;> rfl

theorem hudSpends {h next : ProgressHUD κ} {e : HUDEvent} {ran : List κ} (ok : h.step e = some (next,ran)) :
    next.blocks + (!e.waits).toNat = h.blocks := by
  cases e with
  | wait _ =>
    cases Option.some.inj ok
    rfl
  | operation =>
    simp only [ProgressHUD.step] at ok
    split at ok <;> try contradiction
    · rename_i rest queue
      cases Option.some.inj ok
      rw [fadeInBlocks]
      simp only [ProgressHUD.blocks,queue,List.map_cons,List.sum_cons,HUDOperation.blocks,HUDEvent.waits,
        Bool.not_false,Bool.toNat_true]
      omega
    · rename_i delay completion rest queue
      cases Option.some.inj ok
      simp only [ProgressHUD.blocks,queue,List.map_cons,List.sum_cons,HUDOperation.blocks,HUDEvent.waits,
        List.length_append,List.length_singleton,Bool.not_false,Bool.toNat_true]
      omega
  | delayOver index =>
    simp only [ProgressHUD.step,bind,Option.bind_eq_some_iff] at ok
    obtain ⟨dismissal,found,last⟩ := ok
    split at last <;> try contradiction
    cases Option.some.inj last
    have one : h.delayed.length = (h.delayed.eraseIdx index).length + 1 := (erasePerm found).length_eq
    simp only [ProgressHUD.blocks,HUDEvent.waits,List.length_append,List.length_singleton,Bool.not_false,
      Bool.toNat_true]
    omega
  | fadeOutEnded index =>
    simp only [ProgressHUD.step,bind,Option.bind_eq_some_iff] at ok
    obtain ⟨completion,found,last⟩ := ok
    cases Option.some.inj last
    have one : h.fadeOuts.length = (h.fadeOuts.eraseIdx index).length + 1 := (erasePerm found).length_eq
    simp only [ProgressHUD.blocks,HUDEvent.waits,Bool.not_false,Bool.toNat_true]
    omega

theorem hudPending {h : ProgressHUD κ} (busy : ¬ h.Settled) :
    ∃ milliseconds e next ran, e.waits = false ∧
      ProgressHUD.step {h with now := h.now + milliseconds} e = some (next,ran) := by
  cases queue : h.mainQueue with
  | cons op rest =>
    refine ⟨0,.operation,?_⟩
    simp only [ProgressHUD.step]
    cases op with
    | showProgress => exact ⟨_,_,rfl,rfl⟩
    | dismissWithDelay delay completion => exact ⟨_,_,rfl,rfl⟩
  | nil =>
    cases waiting : h.delayed with
    | cons d rest =>
      have due : d.due ≤ h.now + (d.due - h.now) := by omega
      refine ⟨d.due - h.now,.delayOver 0,?_⟩
      simp only [ProgressHUD.step,List.getElem?_cons_zero,bind,Option.bind_some,if_pos due]
      exact ⟨_,_,rfl,rfl⟩
    | nil =>
      cases fading : h.fadeOuts with
      | nil => exact absurd ⟨queue,waiting,fading⟩ busy
      | cons completion rest =>
        refine ⟨0,.fadeOutEnded 0,?_⟩
        simp only [ProgressHUD.step,List.getElem?_cons_zero,bind,Option.bind_some]
        exact ⟨_,_,rfl,rfl⟩

end BabylonHealthDemo
