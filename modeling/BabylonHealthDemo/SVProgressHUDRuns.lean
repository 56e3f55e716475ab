import BabylonHealthDemo.SVProgressHUD

/-! SVProgressHUD under any calls of any callers: progress, images, pops, dismissals
and settings that change while it shows. A completion is run or dropped once, the
view comes to rest by itself, and what it takes down by itself is an image. -/
namespace BabylonHealthDemo

variable {κ : Type}

inductive FadedIn (h : SVProgressHUD κ) (duration : Option Nat) : SVProgressHUD κ → Prop where
  | fades : FadedIn h duration {h with alpha := 1,fadeIns := h.fadeIns ++ [duration]}
  | stands : FadedIn h duration (SVProgressHUD.dismissAfter {h with alpha := 1} duration)

theorem fadedIn (h : SVProgressHUD κ) (duration : Option Nat) : FadedIn h duration (h.fadeIn duration) := by
  unfold SVProgressHUD.fadeIn
  split
  · split
    · exact .fades
    · exact .stands
  · rename_i shown
    have same : h = {h with alpha := 1} := by rw [← not_not.mp shown]
    rw [same]
    exact .stands

theorem fadedInDelayed (h : SVProgressHUD κ) (duration : Option Nat) :
    (h.alpha = 0 ∧ h.fadeInDelayed duration =
      {h with graceTimer := some ⟨h.now + h.graceTimeInterval,duration,true⟩}) ∨
    FadedIn h duration (h.fadeInDelayed duration) := by
  unfold SVProgressHUD.fadeInDelayed
  split
  · rename_i graced
    exact Or.inl ⟨graced.2,rfl⟩
  · exact Or.inr (fadedIn h duration)

theorem operatedProgress (h : SVProgressHUD κ) (progress : ℚ) :
    ∃ count,h.operate (.showProgress progress) =
      SVProgressHUD.fadeInDelayed {h with fadeOutTimer := none,graceTimer := none,activityCount := count} none := by
  simp only [SVProgressHUD.operate]
  split <;> split <;> try split
  all_goals exact ⟨_,rfl⟩

structure Queues (h : SVProgressHUD κ) (operations : List (SVOperation κ)) (next : SVProgressHUD κ) : Prop where
  mainQueue : next.mainQueue = h.mainQueue ++ operations
  graceTimer : next.graceTimer = h.graceTimer
  fadeOutTimer : next.fadeOutTimer = h.fadeOutTimer
  alpha : next.alpha = h.alpha
  fadeIns : next.fadeIns = h.fadeIns
  delayed : next.delayed = h.delayed
  fadeOuts : next.fadeOuts = h.fadeOuts

def SVOperation.handed : SVOperation κ → List κ
  | .dismissWithDelay _ completion => completion.toList
  | _ => []

def SVEvent.handed : SVEvent κ → List κ
  | .call (.dismissWithDelay _ completion) => completion.toList
  | _ => []

theorem calledQueues (h : SVProgressHUD κ) (call : SVCall κ) :
    ∃ operations,Queues h operations (h.called call) ∧ operations.length ≤ 1 ∧
      operations.flatMap SVOperation.handed = (SVEvent.call call).handed := by
  cases call with
  | showProgress _ | showImage _ => exact ⟨[_],⟨rfl,rfl,rfl,rfl,rfl,rfl,rfl⟩,le_rfl,rfl⟩
  | dismissWithDelay delay completion =>
    exact ⟨[_],⟨rfl,rfl,rfl,rfl,rfl,rfl,rfl⟩,le_rfl,by simp [SVOperation.handed,SVEvent.handed]⟩
  | popActivity =>
    simp only [SVProgressHUD.called,SVProgressHUD.popActivity]
    split <;> split
    · exact ⟨[_],⟨rfl,rfl,rfl,rfl,rfl,rfl,rfl⟩,le_rfl,rfl⟩
    · exact ⟨[],⟨(List.append_nil _).symm,rfl,rfl,rfl,rfl,rfl,rfl⟩,Nat.zero_le _,rfl⟩
    · exact ⟨[_],⟨rfl,rfl,rfl,rfl,rfl,rfl,rfl⟩,le_rfl,rfl⟩
    · exact ⟨[],⟨(List.append_nil _).symm,rfl,rfl,rfl,rfl,rfl,rfl⟩,Nat.zero_le _,rfl⟩
  | setGraceTimeInterval _ | setMinimumDismissTimeInterval _ | setMaximumDismissTimeInterval _
  | setFadeInAnimationDuration _ | setFadeOutAnimationDuration _ =>
    exact ⟨[],⟨(List.append_nil _).symm,rfl,rfl,rfl,rfl,rfl,rfl⟩,Nat.zero_le _,rfl⟩

inductive SVStepped (h : SVProgressHUD κ) : SVEvent κ → SVProgressHUD κ → List κ → Prop where
  | called (call) : SVStepped h (.call call) (h.called call) []
  | waited (milliseconds) : SVStepped h (.wait milliseconds) {h with now := h.now + milliseconds} []
  | operated {operation rest} (queue : h.mainQueue = operation :: rest) :
    SVStepped h .operation (SVProgressHUD.operate {h with mainQueue := rest} operation) []
  | graced {timer} (set : h.graceTimer = some timer) (valid : timer.isValid = true) {next}
    (faded : FadedIn {h with graceTimer := some {timer with isValid := false}} timer.userInfo next) :
    SVStepped h .graceTimer next []
  | timedOut {timer} (set : h.fadeOutTimer = some timer) (valid : timer.isValid = true) :
    SVStepped h .fadeOutTimer (SVProgressHUD.dismiss {h with fadeOutTimer := some {timer with isValid := false}}) []
  | fadesOut {index dismissal} (found : h.delayed[index]? = some dismissal) :
    SVStepped h (.delayOver index) {h with
      delayed := h.delayed.eraseIdx index,
      alpha := 0,
      fadeOuts := h.fadeOuts ++ [dismissal.completion]} []
  | hides {index dismissal} (found : h.delayed[index]? = some dismissal) :
    SVStepped h (.delayOver index) {h with delayed := h.delayed.eraseIdx index,alpha := 0}
      dismissal.completion.toList
  | fadedIn {index duration} (found : h.fadeIns[index]? = some duration) :
    SVStepped h (.fadeInEnded index)
      (SVProgressHUD.fadeInCompletion {h with fadeIns := h.fadeIns.eraseIdx index} duration) []
  | fadedOut {index completion} (found : h.fadeOuts[index]? = some completion) :
    SVStepped h (.fadeOutEnded index) {h with fadeOuts := h.fadeOuts.eraseIdx index}
      (h.fadeOutCompletion completion)

theorem svStepped {h next : SVProgressHUD κ} {e : SVEvent κ} {ran : List κ} (ok : h.step e = some (next,ran)) :
    SVStepped h e next ran := by
  cases e with
  | call call =>
    cases Option.some.inj ok
    exact .called call
  | wait milliseconds =>
    cases Option.some.inj ok
    exact .waited milliseconds
  | operation =>
    simp only [SVProgressHUD.step] at ok
    split at ok <;> try contradiction
    rename_i queue
    cases Option.some.inj ok
    exact .operated queue
  | graceTimer =>
    obtain ⟨timer,set,last⟩ := Option.bind_eq_some_iff.mp ok
    split at last <;> try contradiction
    rename_i fires
    cases Option.some.inj last
    exact .graced set fires.1 (BabylonHealthDemo.fadedIn _ _)
  | fadeOutTimer =>
    obtain ⟨timer,set,last⟩ := Option.bind_eq_some_iff.mp ok
    split at last <;> try contradiction
    rename_i fires
    cases Option.some.inj last
    exact .timedOut set fires.1
  | delayOver index =>
    obtain ⟨dismissal,found,last⟩ := Option.bind_eq_some_iff.mp ok
    split at last <;> try contradiction
    simp only at last
    split at last
    · cases Option.some.inj last
      exact .fadesOut found
    · cases Option.some.inj last
      exact .hides found
  | fadeInEnded index =>
    obtain ⟨duration,found,last⟩ := Option.bind_eq_some_iff.mp ok
    cases Option.some.inj last
    exact .fadedIn found
  | fadeOutEnded index =>
    obtain ⟨completion,found,last⟩ := Option.bind_eq_some_iff.mp ok
    cases Option.some.inj last
    exact .fadedOut found

namespace SVProgressHUD

def flight (h : SVProgressHUD κ) : List κ :=
  h.mainQueue.flatMap SVOperation.handed ++
    (h.delayed.flatMap (fun dismissal => dismissal.completion.toList) ++ h.fadeOuts.flatMap Option.toList)

/- A fade-out that ends while the view shows again drops its completion. -/
def dropped (h : SVProgressHUD κ) : SVEvent κ → List κ
  | .fadeOutEnded index => if h.alpha = 0 then [] else h.fadeOuts[index]?.elim [] Option.toList
  | _ => []

def lost (events : List (SVEvent κ)) : List κ :=
  Steps.watch track (fun s e => s.1.dropped e) (sharedView,[]) events

end SVProgressHUD

@[simp] theorem flightDismissAfter (h : SVProgressHUD κ) (duration : Option Nat) :
    (h.dismissAfter duration).flight = h.flight := by
  cases duration <;> rfl

@[simp] theorem flightFadeInCompletion (h : SVProgressHUD κ) (duration : Option Nat) :
    (h.fadeInCompletion duration).flight = h.flight := by
  unfold SVProgressHUD.fadeInCompletion
  split
  · exact flightDismissAfter h duration
  · rfl

theorem flightFadedIn {h next : SVProgressHUD κ} {duration : Option Nat} (faded : FadedIn h duration next) :
    next.flight = h.flight := by
  cases faded with
  | fades => rfl
  | stands => exact flightDismissAfter _ _

theorem flightShown (h : SVProgressHUD κ) (duration : Option Nat) :
    (h.fadeInDelayed duration).flight = h.flight := by
  rcases fadedInDelayed h duration with ⟨_,waits⟩ | faded
  · rw [waits]
    rfl
  · exact flightFadedIn faded

theorem flightOperated (h : SVProgressHUD κ) (operation : SVOperation κ) :
    (h.operate operation).flight.Perm (operation.handed ++ h.flight) := by
  cases operation with
  | showProgress progress =>
    obtain ⟨count,shown⟩ := operatedProgress h progress
    rw [shown,flightShown]
    rfl
  | showImage duration =>
    rw [SVProgressHUD.operate,flightShown]
    rfl
  | dismissWithDelay delay completion =>
    simp only [SVProgressHUD.operate,SVProgressHUD.flight,SVOperation.handed,List.flatMap_append,
      List.flatMap_singleton,← Multiset.coe_eq_coe,← Multiset.coe_add]
    abel

theorem eraseFlat (f : α → List β) {xs : List α} {index : Nat} {x : α} (found : xs[index]? = some x) :
    (xs.flatMap f).Perm (f x ++ (xs.eraseIdx index).flatMap f) := (erasePerm found).flatMap_right f

theorem flightQueued {h next : SVProgressHUD κ} {operations : List (SVOperation κ)}
    (queues : Queues h operations next) :
    next.flight.Perm (operations.flatMap SVOperation.handed ++ h.flight) := by
  simp only [SVProgressHUD.flight,queues.mainQueue,queues.delayed,queues.fadeOuts,List.flatMap_append,
    ← Multiset.coe_eq_coe,← Multiset.coe_add]
  abel

theorem flightCarried {h next : SVProgressHUD κ} {e : SVEvent κ} {ran : List κ} (ok : h.step e = some (next,ran)) :
    (e.handed ++ h.flight).Perm (next.flight ++ (ran ++ h.dropped e)) := by
  cases svStepped ok with
  | called call =>
    obtain ⟨operations,queues,_,handed⟩ := calledQueues h call
    rw [← handed]
    simpa [SVProgressHUD.dropped] using (flightQueued queues).symm
  | waited milliseconds => simp [SVEvent.handed,SVProgressHUD.dropped,SVProgressHUD.flight]
  | @operated operation rest queue =>
    have handed := flightOperated {h with mainQueue := rest} operation
    have same : h.flight = operation.handed ++ SVProgressHUD.flight {h with mainQueue := rest} := by
      simp [SVProgressHUD.flight,queue]
    simpa [SVEvent.handed,SVProgressHUD.dropped,same] using handed.symm
  | graced set valid faded =>
    simp only [SVEvent.handed,SVProgressHUD.dropped,flightFadedIn faded,List.nil_append,List.append_nil]
    rfl
  | timedOut set valid =>
    simp [SVEvent.handed,SVProgressHUD.dropped,SVProgressHUD.dismiss,SVProgressHUD.dismissWithDelay,
      SVProgressHUD.flight,SVOperation.handed]
  | @fadesOut index dismissal found =>
    have moved := Multiset.coe_eq_coe.mpr (eraseFlat (fun dismissal => dismissal.completion.toList) found)
    simp only [SVEvent.handed,SVProgressHUD.dropped,SVProgressHUD.flight,List.flatMap_append,
      List.flatMap_singleton,← Multiset.coe_eq_coe,← Multiset.coe_add,Multiset.coe_nil] at moved ⊢
    rw [moved]
    abel
  | @hides index dismissal found =>
    have moved := Multiset.coe_eq_coe.mpr (eraseFlat (fun dismissal => dismissal.completion.toList) found)
    simp only [SVEvent.handed,SVProgressHUD.dropped,SVProgressHUD.flight,
      ← Multiset.coe_eq_coe,← Multiset.coe_add,Multiset.coe_nil] at moved ⊢
    rw [moved]
    abel
  | fadedIn found =>
    simp only [SVEvent.handed,SVProgressHUD.dropped,flightFadeInCompletion,List.nil_append,List.append_nil]
    rfl
  | @fadedOut index completion found =>
    have decided : h.fadeOutCompletion completion ++ h.dropped (.fadeOutEnded index) = completion.toList := by
      by_cases hidden : h.alpha = 0 <;>
        simp [SVProgressHUD.fadeOutCompletion,SVProgressHUD.dropped,hidden,found]
    have moved := Multiset.coe_eq_coe.mpr (eraseFlat Option.toList found)
    rw [decided]
    simp only [SVEvent.handed,SVProgressHUD.flight,← Multiset.coe_eq_coe,← Multiset.coe_add,
      Multiset.coe_nil] at moved ⊢
    rw [moved]
    abel

/- Nothing under way: what is left of a timer has fired. -/
structure SVProgressHUD.AtRest (h : SVProgressHUD κ) : Prop where
  mainQueue : h.mainQueue = []
  graceTimer : ∀ timer ∈ h.graceTimer,timer.isValid = false
  fadeOutTimer : ∀ timer ∈ h.fadeOutTimer,timer.isValid = false
  fadeIns : h.fadeIns = []
  delayed : h.delayed = []
  fadeOuts : h.fadeOuts = []

theorem dismissalsAccounted {events : List (SVEvent κ)} {last : SVProgressHUD κ × List κ}
    (ran : Steps.run SVProgressHUD.track (.sharedView,[]) events = some last) :
    (events.flatMap SVEvent.handed).Perm (last.1.flight ++ (last.2 ++ SVProgressHUD.lost events)) ∧
    (last.1.AtRest → (events.flatMap SVEvent.handed).Perm (last.2 ++ SVProgressHUD.lost events)) := by
  have carried : (events.flatMap SVEvent.handed).Perm (last.1.flight ++ (last.2 ++ SVProgressHUD.lost events)) := by
    refine Steps.history (fun events last => (events.flatMap SVEvent.handed).Perm
      (last.1.flight ++ (last.2 ++ SVProgressHUD.lost events))) (by rfl) ?_ ran
    intro events before e _ found carried tracked
    obtain ⟨⟨next,news⟩,stepped,rfl⟩ := Option.map_eq_some_iff.mp tracked
    have moved := Multiset.coe_eq_coe.mpr (flightCarried stepped)
    have sofar := Multiset.coe_eq_coe.mpr carried
    rw [SVProgressHUD.lost] at sofar ⊢
    rw [Steps.watchSnoc found]
    simp only [List.flatMap_append,List.flatMap_singleton,← Multiset.coe_eq_coe,← Multiset.coe_add] at moved sofar ⊢
    rw [sofar,add_right_comm,add_comm (SVProgressHUD.flight before.1 : Multiset κ),moved]
    abel
  refine ⟨carried,fun rest => ?_⟩
  have none : last.1.flight = [] := by
    simp [SVProgressHUD.flight,rest.mainQueue,rest.delayed,rest.fadeOuts]
  rwa [none] at carried

def droppedEvents : List (SVEvent Nat) :=
  [.call (.showProgress SVProgressHUDUndefinedProgress),.operation,.call (.dismissWithDelay 0 (some 1)),.operation,
    .delayOver 0,.call (.showProgress 0),.operation,.fadeOutEnded 0,.call (.dismissWithDelay 300 (some 2)),
    .operation,.wait 300,.delayOver 0,.fadeOutEnded 0,.fadeInEnded 1,.fadeInEnded 0]

theorem droppedAccounted : ∃ last,Steps.run SVProgressHUD.track (.sharedView,[]) droppedEvents = some last ∧
    last.2 = [2] ∧ SVProgressHUD.lost droppedEvents = [1] ∧
    (droppedEvents.flatMap SVEvent.handed).Perm (last.2 ++ SVProgressHUD.lost droppedEvents) := by
  have ran : Steps.run SVProgressHUD.track (.sharedView,[]) droppedEvents = some _ := rfl
  have none : ∀ timer ∈ (none : Option HUDTimer),timer.isValid = false := fun _ set => by cases set
  exact ⟨_,ran,rfl,rfl,(dismissalsAccounted ran).2 ⟨rfl,none,none,rfl,rfl,rfl⟩⟩

def durationBlocks : Option Nat → Nat
  | none => 0
  | some _ => 4

def SVOperation.blocks : SVOperation κ → Nat
  | .showProgress _ => 3
  | .showImage _ => 7
  | .dismissWithDelay _ _ => 3

def HUDTimer.blocks (timer : HUDTimer) (fires : Nat) : Nat := if timer.isValid then fires else 0

namespace SVProgressHUD

def blocks (h : SVProgressHUD κ) : Nat :=
  (h.mainQueue.map SVOperation.blocks).sum +
    h.graceTimer.elim 0 (fun timer => timer.blocks (2 + durationBlocks timer.userInfo)) +
    h.fadeOutTimer.elim 0 (fun timer => timer.blocks 4) +
    (h.fadeIns.map (fun duration => 1 + durationBlocks duration)).sum + 2*h.delayed.length + h.fadeOuts.length

end SVProgressHUD

namespace SVEvent

def calls : SVEvent κ → Bool
  | .call _ => true
  | _ => false

def waits : SVEvent κ → Bool
  | .wait _ => true
  | _ => false

end SVEvent

theorem operationBlocks (operation : SVOperation κ) : operation.blocks ≤ 7 := by
  cases operation <;> simp [SVOperation.blocks]

theorem dismissAfterBlocks (h : SVProgressHUD κ) (duration : Option Nat) :
    (h.dismissAfter duration).blocks ≤ h.blocks + durationBlocks duration := by
  cases duration with
  | none => rfl
  | some duration =>
    simp only [SVProgressHUD.dismissAfter,SVProgressHUD.blocks,Option.elim_some,HUDTimer.blocks,durationBlocks,
      if_true]
    omega

theorem fadedInBlocks {h next : SVProgressHUD κ} {duration : Option Nat} (faded : FadedIn h duration next) :
    next.blocks ≤ h.blocks + 1 + durationBlocks duration := by
  cases faded with
  | fades =>
    simp only [SVProgressHUD.blocks,List.map_append,List.sum_append,List.map_singleton,List.sum_singleton]
    omega
  | stands => exact (dismissAfterBlocks _ _).trans (by simp [SVProgressHUD.blocks])

theorem shownBlocks (h : SVProgressHUD κ) (duration : Option Nat) :
    (h.fadeInDelayed duration).blocks ≤ h.blocks + 2 + durationBlocks duration := by
  rcases fadedInDelayed h duration with ⟨_,waits⟩ | faded
  · rw [waits]
    simp only [SVProgressHUD.blocks,Option.elim_some,HUDTimer.blocks,if_true]
    omega
  · exact (fadedInBlocks faded).trans (by omega)

theorem operatedBlocks (h : SVProgressHUD κ) (operation : SVOperation κ) :
    (h.operate operation).blocks + 1 ≤ h.blocks + operation.blocks := by
  cases operation with
  | showProgress progress =>
    obtain ⟨count,shown⟩ := operatedProgress h progress
    have bound := shownBlocks {h with fadeOutTimer := none,graceTimer := none,activityCount := count} none
    rw [shown]
    simp only [SVProgressHUD.blocks,SVOperation.blocks,durationBlocks,Option.elim_none] at bound ⊢
    omega
  | showImage duration =>
    have bound := shownBlocks {h with fadeOutTimer := none,graceTimer := none} (some duration)
    rw [SVProgressHUD.operate]
    simp only [SVProgressHUD.blocks,SVOperation.blocks,durationBlocks,Option.elim_none] at bound ⊢
    omega
  | dismissWithDelay delay completion =>
    simp only [SVProgressHUD.operate,SVProgressHUD.blocks,SVOperation.blocks,Option.elim_none,List.length_append,
      List.length_singleton]
    omega

theorem queuedBlocks {h next : SVProgressHUD κ} {operations : List (SVOperation κ)}
    (queues : Queues h operations next) :
    next.blocks = h.blocks + (operations.map SVOperation.blocks).sum := by
  simp only [SVProgressHUD.blocks,queues.mainQueue,queues.graceTimer,queues.fadeOutTimer,queues.fadeIns,
    queues.delayed,queues.fadeOuts,List.map_append,List.sum_append]
  omega

theorem svSpends {h next : SVProgressHUD κ} {e : SVEvent κ} {ran : List κ} (ok : h.step e = some (next,ran)) :
    next.blocks + (!e.calls && !e.waits).toNat ≤ h.blocks + 7*e.calls.toNat := by
  cases svStepped ok with
  | called call =>
    obtain ⟨operations,queues,one,_⟩ := calledQueues h call
    rw [queuedBlocks queues]
    have bound := List.sum_le_card_nsmul (operations.map SVOperation.blocks) 7 (by
      simpa using fun operation _ => operationBlocks operation)
    simp only [List.length_map,smul_eq_mul] at bound
    simp only [SVEvent.calls,SVEvent.waits,Bool.toNat_true,Bool.toNat_false,Bool.not_true,Bool.false_and]
    omega
  | waited milliseconds => rfl
  | @operated operation rest queue =>
    have bound := operatedBlocks {h with mainQueue := rest} operation
    simp only [SVProgressHUD.blocks,queue,List.map_cons,List.sum_cons,SVEvent.calls,SVEvent.waits,Bool.not_false,
      Bool.and_true,Bool.toNat_true,Bool.toNat_false] at bound ⊢
    omega
  | @graced timer set valid _ faded =>
    have bound := fadedInBlocks faded
    simp only [SVProgressHUD.blocks,set,Option.elim_some,HUDTimer.blocks,valid,if_true,Bool.false_eq_true,if_false,
      SVEvent.calls,SVEvent.waits,Bool.not_false,Bool.and_true,Bool.toNat_true,Bool.toNat_false] at bound ⊢
    omega
  | timedOut set valid =>
    simp only [SVProgressHUD.dismiss,SVProgressHUD.dismissWithDelay,SVProgressHUD.blocks,set,Option.elim_some,
      HUDTimer.blocks,valid,if_true,Bool.false_eq_true,if_false,SVEvent.calls,SVEvent.waits,Bool.not_false,
      Bool.and_true,Bool.toNat_true,Bool.toNat_false,List.map_append,List.sum_append,List.map_singleton,
      List.sum_singleton,SVOperation.blocks]
    omega
  | fadesOut found =>
    have one := (erasePerm found).length_eq
    simp only [SVProgressHUD.blocks,SVEvent.calls,SVEvent.waits,Bool.not_false,Bool.and_true,Bool.toNat_true,
      Bool.toNat_false,List.length_append,List.length_cons,List.length_nil] at one ⊢
    omega
  | hides found =>
    have one := (erasePerm found).length_eq
    simp only [SVProgressHUD.blocks,SVEvent.calls,SVEvent.waits,Bool.not_false,Bool.and_true,Bool.toNat_true,
      Bool.toNat_false,List.length_cons] at one ⊢
    omega
  | @fadedIn index duration found =>
    have one := ((erasePerm found).map (fun duration => 1 + durationBlocks duration)).sum_eq
    have bound : (SVProgressHUD.fadeInCompletion {h with fadeIns := h.fadeIns.eraseIdx index} duration).blocks ≤
        SVProgressHUD.blocks {h with fadeIns := h.fadeIns.eraseIdx index} + durationBlocks duration := by
      unfold SVProgressHUD.fadeInCompletion
      split
      · exact dismissAfterBlocks _ _
      · exact Nat.le_add_right _ _
    simp only [SVProgressHUD.blocks,SVEvent.calls,SVEvent.waits,Bool.not_false,Bool.and_true,Bool.toNat_true,
      Bool.toNat_false,List.map_cons,List.sum_cons] at one bound ⊢
    omega
  | fadedOut found =>
    have one := (erasePerm found).length_eq
    simp only [SVProgressHUD.blocks,SVEvent.calls,SVEvent.waits,Bool.not_false,Bool.and_true,Bool.toNat_true,
      Bool.toNat_false,List.length_cons] at one ⊢
    omega

def SVEvent.block (e : SVEvent κ) : Bool := !e.calls && !e.waits

theorem svBounded {events : List (SVEvent κ)} {last : SVProgressHUD κ × List κ}
    (ran : Steps.run SVProgressHUD.track (.sharedView,[]) events = some last) :
    events.countP SVEvent.block + last.1.blocks ≤ 7*events.countP SVEvent.calls := by
  have initial : (SVProgressHUD.sharedView : SVProgressHUD κ).blocks = 0 := rfl
  have bound := Steps.spends (fun s : SVProgressHUD κ × List κ => s.1.blocks) SVEvent.block SVEvent.calls 7
    (fun events before e next found tracked => ?_) ran
  · simpa only [initial,Nat.zero_add] using bound
  · obtain ⟨after,stepped,rfl⟩ := Option.map_eq_some_iff.mp tracked
    exact svSpends stepped

theorem svPending {h : SVProgressHUD κ} (busy : ¬ h.AtRest) :
    ∃ milliseconds e next,e.block = true ∧
      SVProgressHUD.step {h with now := h.now + milliseconds} e = some next := by
  by_contra stuck
  have refused : ∀ milliseconds (e : SVEvent κ),e.block = true →
      SVProgressHUD.step {h with now := h.now + milliseconds} e = none := by
    intro milliseconds e block
    rw [Option.eq_none_iff_forall_ne_some]
    exact fun next stepped => stuck ⟨milliseconds,e,next,block,stepped⟩
  have due : ∀ time : Nat,time ≤ h.now + (time - h.now) := fun time => by omega
  have fired : ∀ timer : HUDTimer,h.graceTimer = some timer ∨ h.fadeOutTimer = some timer →
      timer.isValid = false := by
    rintro timer (set | set) <;> by_contra valid
    · have refuses := refused (timer.fireTime - h.now) .graceTimer rfl
      simp [SVProgressHUD.step,set,valid,due] at refuses
    · have refuses := refused (timer.fireTime - h.now) .fadeOutTimer rfl
      simp [SVProgressHUD.step,set,valid,due] at refuses
  refine busy ⟨?_,fun timer set => fired timer (Or.inl set),fun timer set => fired timer (Or.inr set),?_,?_,?_⟩
  · cases queue : h.mainQueue with
    | nil => rfl
    | cons operation rest =>
      have refuses := refused 0 .operation rfl
      simp [SVProgressHUD.step,queue] at refuses
  · cases fading : h.fadeIns with
    | nil => rfl
    | cons duration rest =>
      have refuses := refused 0 (.fadeInEnded 0) rfl
      simp [SVProgressHUD.step,fading] at refuses
  · cases waiting : h.delayed with
    | nil => rfl
    | cons dismissal rest =>
      have refuses := refused (dismissal.due - h.now) (.delayOver 0) rfl
      simp only [SVProgressHUD.step,waiting,List.getElem?_cons_zero,bind,Option.bind_some,if_pos (due _)] at refuses
      split at refuses <;> contradiction
  · cases fading : h.fadeOuts with
    | nil => rfl
    | cons completion rest =>
      have refuses := refused 0 (.fadeOutEnded 0) rfl
      simp [SVProgressHUD.step,fading] at refuses

def waitThen (d : Nat × SVEvent κ) : List (SVEvent κ) := [.wait d.1,d.2]

theorem svProgress {s : SVProgressHUD κ × List κ} (busy : ¬ s.1.AtRest) :
    ∃ d next,SVEvent.block d.2 = true ∧ Steps.run SVProgressHUD.track s (waitThen d) = some next ∧
      next.1.blocks < s.1.blocks := by
  obtain ⟨milliseconds,e,⟨next,news⟩,block,stepped⟩ := svPending busy
  refine ⟨(milliseconds,e),(next,s.2 ++ [] ++ news),block,?_,?_⟩
  · have second : SVProgressHUD.track ({s.1 with now := s.1.now + milliseconds},s.2 ++ []) e =
        some (next,s.2 ++ [] ++ news) := by
      simp only [SVProgressHUD.track,stepped,Option.map_some]
    have first : SVProgressHUD.track s (.wait milliseconds) =
        some ({s.1 with now := s.1.now + milliseconds},s.2 ++ []) := rfl
    simp only [waitThen,Steps.run,first,second,Option.bind_some]
  · have spent := svSpends stepped
    have uncalled : e.calls = false := by
      cases e <;> first | rfl | cases block
    rw [← SVEvent.block,block,uncalled] at spent
    exact spent

theorem viewComesToRest {events : List (SVEvent κ)} {last : SVProgressHUD κ × List κ}
    (ran : Steps.run SVProgressHUD.track (.sharedView,[]) events = some last) :
    events.countP SVEvent.block ≤ 7*events.countP SVEvent.calls ∧
    (¬ last.1.AtRest → ∃ d next,SVEvent.block d.2 = true ∧
      Steps.run SVProgressHUD.track last (waitThen d) = some next) ∧
    ∃ more rest,(∀ e ∈ more,e.calls = false) ∧ more.length ≤ 14*events.countP SVEvent.calls ∧
      Steps.run SVProgressHUD.track (.sharedView,[]) (events ++ more) = some rest ∧ rest.1.AtRest := by
  have bound := svBounded ran
  refine ⟨by omega,fun busy => ?_,?_⟩
  · obtain ⟨d,next,block,stepped,_⟩ := svProgress busy
    exact ⟨d,next,block,stepped⟩
  · have progress : ∀ s : SVProgressHUD κ × List κ,True → ¬ s.1.AtRest →
        ∃ d next,SVEvent.block d.2 = true ∧ Steps.run SVProgressHUD.track s (waitThen d) = some next ∧ True ∧
          next.1.blocks < s.1.blocks := by
      intro s _ busy
      obtain ⟨d,next,block,stepped,less⟩ := svProgress busy
      exact ⟨d,next,block,stepped,trivial,less⟩
    obtain ⟨more,rest,only,short,ranMore,_,atRest⟩ := Steps.drains _ _ _ _ progress (s := last) trivial
    refine ⟨more.flatMap waitThen,rest,?_,?_,?_,atRest⟩
    · intro e member
      obtain ⟨d,inside,part⟩ := List.mem_flatMap.mp member
      rcases List.mem_pair.mp part with rfl | rfl
      · rfl
      · have block := only d inside
        rw [SVEvent.block,Bool.and_eq_true,Bool.not_eq_true'] at block
        exact block.1
    · have double : (more.flatMap waitThen).length = 2*more.length := by
        simp [waitThen,List.length_flatMap,mul_comm]
      omega
    · rw [Steps.runAppend,ran]
      exact (Steps.runFlat _ _ _).symm.trans ranMore

def imageEvents : List (SVEvent Nat) :=
  [.call (.showImage 0),.operation,.call (.showProgress 1),.operation,.fadeInEnded 0,.wait 5000,.fadeOutTimer,
    .operation,.delayOver 0,.fadeOutEnded 0]

theorem imageComesToRest : ∃ last more rest,
    Steps.run SVProgressHUD.track (.sharedView,[]) (imageEvents.take 5) = some last ∧
    Steps.run SVProgressHUD.track (.sharedView,[]) (imageEvents.take 5 ++ more) = some rest ∧ rest.1.AtRest ∧
    more.length ≤ 28 := by
  have ran : Steps.run SVProgressHUD.track (.sharedView,[]) (imageEvents.take 5) = some _ := rfl
  obtain ⟨_,_,more,rest,_,short,later,atRest⟩ := viewComesToRest ran
  exact ⟨_,more,rest,ran,later,atRest,short⟩

end BabylonHealthDemo
