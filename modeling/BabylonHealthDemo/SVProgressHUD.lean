import BabylonHealthDemo.App

/-! SVProgressHUD as its own source has it, whoever calls it: progress and images,
delayed and plain dismissals, the activity count, a grace timer, a fade-out timer and
the animation settings. The app only shows and dismisses, and for such callers the
smaller HUD of this development is all there is to see: no timer is ever set, and the
completions that run are the same. -/
namespace BabylonHealthDemo
open Callbacks

def SVProgressHUDUndefinedProgress : ℚ := -1

def SVProgressHUDDefaultAnimationDuration : Nat := 150

/- A timer that has fired stays in its property, invalidated. -/
structure HUDTimer where
  fireTime : Nat
  userInfo : Option Nat
  isValid : Bool

inductive SVOperation (κ : Type) where
  | showProgress (progress : ℚ)
  | showImage (duration : Nat)
  | dismissWithDelay (delay : Nat) (completion : Option κ)

/- The background's alpha stands for all of them. A maximum of none is CGFLOAT_MAX. -/
structure SVProgressHUD (κ : Type) where
  now : Nat
  mainQueue : List (SVOperation κ)
  graceTimer : Option HUDTimer
  fadeOutTimer : Option HUDTimer
  activityCount : Nat
  alpha : Nat
  fadeIns : List (Option Nat)
  delayed : List (DelayedDismissal (Option κ))
  fadeOuts : List (Option κ)
  graceTimeInterval : Nat
  minimumDismissTimeInterval : Nat
  maximumDismissTimeInterval : Option Nat
  fadeInAnimationDuration : Nat
  fadeOutAnimationDuration : Nat

variable {κ : Type}

inductive SVCall (κ : Type) where
  | showProgress (progress : ℚ)
  | showImage (statusLength : Nat)
  | popActivity
  | dismissWithDelay (delay : Nat) (completion : Option κ)
  | setGraceTimeInterval (interval : Nat)
  | setMinimumDismissTimeInterval (interval : Nat)
  | setMaximumDismissTimeInterval (interval : Nat)
  | setFadeInAnimationDuration (duration : Nat)
  | setFadeOutAnimationDuration (duration : Nat)

def SVCall.show : SVCall κ := .showProgress SVProgressHUDUndefinedProgress

inductive SVEvent (κ : Type) where
  | call (call : SVCall κ)
  | wait (milliseconds : Nat)
  | operation
  | graceTimer
  | fadeOutTimer
  | delayOver (index : Nat)
  | fadeInEnded (index : Nat)
  | fadeOutEnded (index : Nat)

namespace SVProgressHUD

def sharedView : SVProgressHUD κ where
  now := 0
  mainQueue := []
  graceTimer := none
  fadeOutTimer := none
  activityCount := 0
  alpha := 0
  fadeIns := []
  delayed := []
  fadeOuts := []
  graceTimeInterval := 0
  minimumDismissTimeInterval := 5000
  maximumDismissTimeInterval := none
  fadeInAnimationDuration := SVProgressHUDDefaultAnimationDuration
  fadeOutAnimationDuration := SVProgressHUDDefaultAnimationDuration

def showProgress (h : SVProgressHUD κ) (progress : ℚ) : SVProgressHUD κ :=
  {h with mainQueue := h.mainQueue ++ [.showProgress progress]}

def displayDurationForString (h : SVProgressHUD κ) (length : Nat) : Nat :=
  let minimum := max (60*length + 500) h.minimumDismissTimeInterval
  h.maximumDismissTimeInterval.elim minimum (min minimum)

def showImage (h : SVProgressHUD κ) (statusLength : Nat) : SVProgressHUD κ :=
  {h with mainQueue := h.mainQueue ++ [.showImage (h.displayDurationForString statusLength)]}

def dismissWithDelay (h : SVProgressHUD κ) (delay : Nat) (completion : Option κ) : SVProgressHUD κ :=
  {h with mainQueue := h.mainQueue ++ [.dismissWithDelay delay completion]}

def dismiss (h : SVProgressHUD κ) : SVProgressHUD κ := h.dismissWithDelay 0 none

def popActivity (h : SVProgressHUD κ) : SVProgressHUD κ :=
  let h := if h.activityCount > 0 then {h with activityCount := h.activityCount - 1} else h
  if h.activityCount = 0 then h.dismiss else h

def called (h : SVProgressHUD κ) : SVCall κ → SVProgressHUD κ
  | .showProgress progress => h.showProgress progress
  | .showImage statusLength => h.showImage statusLength
  | .popActivity => h.popActivity
  | .dismissWithDelay delay completion => h.dismissWithDelay delay completion
  | .setGraceTimeInterval interval => {h with graceTimeInterval := interval}
  | .setMinimumDismissTimeInterval interval => {h with minimumDismissTimeInterval := interval}
  | .setMaximumDismissTimeInterval interval => {h with maximumDismissTimeInterval := some interval}
  | .setFadeInAnimationDuration duration => {h with fadeInAnimationDuration := duration}
  | .setFadeOutAnimationDuration duration => {h with fadeOutAnimationDuration := duration}

def dismissAfter (h : SVProgressHUD κ) : Option Nat → SVProgressHUD κ
  | none => h
  | some duration => {h with fadeOutTimer := some ⟨h.now + duration,none,true⟩}

def fadeInCompletion (h : SVProgressHUD κ) (duration : Option Nat) : SVProgressHUD κ :=
  if h.alpha = 1 then h.dismissAfter duration else h

def fadeIn (h : SVProgressHUD κ) (duration : Option Nat) : SVProgressHUD κ :=
  if h.alpha ≠ 1 then
    if h.fadeInAnimationDuration > 0 then {h with alpha := 1,fadeIns := h.fadeIns ++ [duration]}
    else fadeInCompletion {h with alpha := 1} duration
  else h.dismissAfter duration

def fadeInDelayed (h : SVProgressHUD κ) (duration : Option Nat) : SVProgressHUD κ :=
  if h.graceTimeInterval > 0 ∧ h.alpha = 0 then
    {h with graceTimer := some ⟨h.now + h.graceTimeInterval,duration,true⟩}
  else h.fadeIn duration

def fadeOutCompletion (h : SVProgressHUD κ) (completion : Option κ) : List κ :=
  if h.alpha = 0 then completion.toList else []

def operate (h : SVProgressHUD κ) : SVOperation κ → SVProgressHUD κ
  | .showProgress progress =>
    let h := if h.fadeOutTimer.isSome then {h with activityCount := 0} else h
    let h := {h with fadeOutTimer := none,graceTimer := none}
    let h :=
      if progress ≥ 0 then
        if progress = 0 then {h with activityCount := h.activityCount + 1} else h
      else {h with activityCount := h.activityCount + 1}
    h.fadeInDelayed none
  | .showImage duration => fadeInDelayed {h with fadeOutTimer := none,graceTimer := none} (some duration)
  | .dismissWithDelay delay completion => {h with
      graceTimer := none,
      activityCount := 0,
      delayed := h.delayed ++ [⟨h.now + delay,completion⟩]}

def step (h : SVProgressHUD κ) : SVEvent κ → Option (SVProgressHUD κ × List κ)
  | .call call => some (h.called call,[])
  | .wait milliseconds => some ({h with now := h.now + milliseconds},[])
  | .operation => match h.mainQueue with
    | [] => none
    | operation :: rest => some (operate {h with mainQueue := rest} operation,[])
  | .graceTimer => do
    let timer ← h.graceTimer
    if timer.isValid ∧ timer.fireTime ≤ h.now then
      some (fadeIn {h with graceTimer := some {timer with isValid := false}} timer.userInfo,[])
    else none
  | .fadeOutTimer => do
    let timer ← h.fadeOutTimer
    if timer.isValid ∧ timer.fireTime ≤ h.now then
      some (dismiss {h with fadeOutTimer := some {timer with isValid := false}},[])
    else none
  | .delayOver index => do
    let dismissal ← h.delayed[index]?
    if dismissal.due ≤ h.now then
      let h := {h with delayed := h.delayed.eraseIdx index,alpha := 0}
      if h.fadeOutAnimationDuration > 0 then
        some ({h with fadeOuts := h.fadeOuts ++ [dismissal.completion]},[])
      else some (h,h.fadeOutCompletion dismissal.completion)
    else none
  | .fadeInEnded index => do
    let duration ← h.fadeIns[index]?
    some (fadeInCompletion {h with fadeIns := h.fadeIns.eraseIdx index} duration,[])
  | .fadeOutEnded index => do
    let completion ← h.fadeOuts[index]?
    some ({h with fadeOuts := h.fadeOuts.eraseIdx index},h.fadeOutCompletion completion)

def track (s : SVProgressHUD κ × List κ) (e : SVEvent κ) : Option (SVProgressHUD κ × List κ) :=
  (s.1.step e).map (fun next => (next.1,s.2 ++ next.2))

end SVProgressHUD

inductive HUDDrive (κ : Type) where
  | show
  | dismissWithDelay (delay : Nat) (completion : κ)
  | loop (event : HUDEvent)

namespace ProgressHUD

def driven (h : ProgressHUD κ) : HUDDrive κ → Option (ProgressHUD κ × List κ)
  | .show => some (h.showProgress,[])
  | .dismissWithDelay delay completion => some (h.dismissWithDelay delay completion,[])
  | .loop e => h.step e

def track (s : ProgressHUD κ × List κ) (d : HUDDrive κ) : Option (ProgressHUD κ × List κ) :=
  (s.1.driven d).map (fun next => (next.1,s.2 ++ next.2))

def begun (s : ProgressHUD κ × List κ) : HUDDrive κ → List Bool
  | .loop .operation => match s.1.mainQueue with
    | [] => []
    | .showProgress :: _ => [true]
    | .dismissWithDelay _ _ :: _ => [false]
  | _ => []

end ProgressHUD

def HUDOperation.full : HUDOperation κ → SVOperation κ
  | .showProgress => .showProgress SVProgressHUDUndefinedProgress
  | .dismissWithDelay delay completion => .dismissWithDelay delay (some completion)

def DelayedDismissal.full (dismissal : DelayedDismissal κ) : DelayedDismissal (Option κ) :=
  ⟨dismissal.due,some dismissal.completion⟩

def HUDEvent.full : HUDEvent → SVEvent κ
  | .wait milliseconds => .wait milliseconds
  | .operation => .operation
  | .delayOver index => .delayOver index
  | .fadeOutEnded index => .fadeOutEnded index

def HUDDrive.full : HUDDrive κ → SVEvent κ
  | .show => .call .show
  | .dismissWithDelay delay completion => .call (.dismissWithDelay delay (some completion))
  | .loop e => e.full

def SVProgressHUD.of (s : ProgressHUD κ) (activityCount fadeIns : Nat) : SVProgressHUD κ :=
  {(sharedView : SVProgressHUD κ) with
    now := s.now,
    mainQueue := s.mainQueue.map HUDOperation.full,
    activityCount := activityCount,
    alpha := s.alpha,
    fadeIns := List.replicate fadeIns none,
    delayed := s.delayed.map DelayedDismissal.full,
    fadeOuts := s.fadeOuts.map some}

def shownSince (blocks : List Bool) : Nat := (blocks.reverse.takeWhile id).length

theorem shownSinceSnoc (blocks : List Bool) (shown : Bool) :
    shownSince (blocks ++ [shown]) = if shown then shownSince blocks + 1 else 0 := by
  cases shown <;> simp [shownSince]

theorem undefinedProgressNegative : ¬ SVProgressHUDUndefinedProgress ≥ 0 := by
  norm_num [SVProgressHUDUndefinedProgress]

theorem showFull (s : ProgressHUD κ) (activityCount fadeIns : Nat) :
    (SVProgressHUD.of s activityCount fadeIns).operate (HUDOperation.full .showProgress) =
      .of s.fadeIn (activityCount + 1) (if s.alpha ≠ 1 then fadeIns + 1 else fadeIns) := by
  have undefinedProgress := undefinedProgressNegative
  simp only [HUDOperation.full,SVProgressHUD.operate,SVProgressHUD.of,SVProgressHUD.sharedView,
    Option.isSome_none,Bool.false_eq_true,if_false,undefinedProgress,SVProgressHUD.fadeInDelayed,
    SVProgressHUD.fadeIn,SVProgressHUD.dismissAfter,SVProgressHUDDefaultAnimationDuration,
    gt_iff_lt,Nat.lt_irrefl,false_and,ProgressHUD.fadeIn]
  split
  · simp only [Nat.ofNat_pos,if_true,List.replicate_succ']
  · rfl

theorem drivenFull (s : ProgressHUD κ) (blocks : List Bool) (fadeIns : Nat) (ran : List κ) (d : HUDDrive κ) :
    ∃ fadeIns',SVProgressHUD.track (.of s (shownSince blocks) fadeIns,ran) d.full =
      (ProgressHUD.track (s,ran) d).map (fun next =>
        (.of next.1 (shownSince (blocks ++ ProgressHUD.begun (s,ran) d)) fadeIns',next.2)) := by
  cases d with
  | «show» =>
    refine ⟨fadeIns,?_⟩
    simp [SVProgressHUD.track,HUDDrive.full,SVCall.show,SVProgressHUD.step,SVProgressHUD.called,
      SVProgressHUD.showProgress,ProgressHUD.track,ProgressHUD.driven,ProgressHUD.showProgress,ProgressHUD.begun,SVProgressHUD.of,
      HUDOperation.full]
  | dismissWithDelay delay completion =>
    refine ⟨fadeIns,?_⟩
    simp [SVProgressHUD.track,HUDDrive.full,SVProgressHUD.step,SVProgressHUD.called,
      SVProgressHUD.dismissWithDelay,ProgressHUD.track,ProgressHUD.driven,ProgressHUD.dismissWithDelay,
      ProgressHUD.begun,SVProgressHUD.of,HUDOperation.full]
  | loop e =>
    cases e with
    | wait milliseconds =>
      refine ⟨fadeIns,?_⟩
      simp [SVProgressHUD.track,HUDDrive.full,HUDEvent.full,SVProgressHUD.step,ProgressHUD.track,
        ProgressHUD.driven,ProgressHUD.step,ProgressHUD.begun,SVProgressHUD.of]
    | operation =>
      simp only [SVProgressHUD.track,HUDDrive.full,HUDEvent.full,SVProgressHUD.step,ProgressHUD.track,
        ProgressHUD.driven,ProgressHUD.step,ProgressHUD.begun]
      cases queue : s.mainQueue with
      | nil => exact ⟨fadeIns,by simp [SVProgressHUD.of,queue]⟩
      | cons operation rest =>
        cases operation with
        | showProgress =>
          have shown := showFull {s with mainQueue := rest} (shownSince blocks) fadeIns
          refine ⟨if s.alpha ≠ 1 then fadeIns + 1 else fadeIns,?_⟩
          rw [shownSinceSnoc]
          simp only [SVProgressHUD.of,queue,List.map_cons] at shown ⊢
          rw [shown]
          rfl
        | dismissWithDelay delay completion =>
          refine ⟨fadeIns,?_⟩
          rw [shownSinceSnoc]
          simp [SVProgressHUD.of,SVProgressHUD.operate,queue,HUDOperation.full,DelayedDismissal.full,
            SVProgressHUD.sharedView]
    | delayOver index =>
      refine ⟨fadeIns,?_⟩
      simp only [SVProgressHUD.track,HUDDrive.full,HUDEvent.full,SVProgressHUD.step,ProgressHUD.track,
        ProgressHUD.driven,ProgressHUD.step,ProgressHUD.begun,SVProgressHUD.of,SVProgressHUD.sharedView,
        List.getElem?_map,List.append_nil]
      cases s.delayed[index]? with
      | none => rfl
      | some dismissal =>
        simp only [Option.map_some,bind,Option.bind_some,DelayedDismissal.full]
        by_cases due : dismissal.due ≤ s.now
        · simp [due,SVProgressHUDDefaultAnimationDuration,List.eraseIdx_map]
        · simp [due]
    | fadeOutEnded index =>
      refine ⟨fadeIns,?_⟩
      simp only [SVProgressHUD.track,HUDDrive.full,HUDEvent.full,SVProgressHUD.step,ProgressHUD.track,
        ProgressHUD.driven,ProgressHUD.step,ProgressHUD.begun,SVProgressHUD.of,SVProgressHUD.sharedView,
        List.getElem?_map,List.append_nil]
      cases s.fadeOuts[index]? with
      | none => rfl
      | some completion =>
        simp [SVProgressHUD.fadeOutCompletion,List.eraseIdx_map]

inductive AppHUDEvent (κ : Type) where
  | drive (drive : HUDDrive κ)
  | fadeInEnded (index : Nat)
  | graceTimer
  | fadeOutTimer

namespace AppHUDEvent

def full : AppHUDEvent κ → SVEvent κ
  | .drive d => d.full
  | .fadeInEnded index => .fadeInEnded index
  | .graceTimer => .graceTimer
  | .fadeOutTimer => .fadeOutTimer

def driven : AppHUDEvent κ → Option (HUDDrive κ)
  | .drive d => some d
  | _ => none

end AppHUDEvent

theorem undrivenFull {s : ProgressHUD κ} {activityCount fadeIns : Nat} {ran : List κ} {e : AppHUDEvent κ}
    {last : SVProgressHUD κ × List κ} (inner : e.driven = none)
    (ok : SVProgressHUD.track (.of s activityCount fadeIns,ran) e.full = some last) :
    ∃ fadeIns',last = (.of s activityCount fadeIns',ran) := by
  cases e with
  | drive d => cases inner
  | graceTimer => cases ok
  | fadeOutTimer => cases ok
  | fadeInEnded index =>
    refine ⟨fadeIns - 1,?_⟩
    by_cases inside : index < fadeIns
    · have duration : (List.replicate fadeIns (none : Option Nat))[index]? = some none := by simp [inside]
      have ended : ((List.replicate fadeIns (none : Option Nat)).eraseIdx index) =
          List.replicate (fadeIns - 1) none := by simp [List.eraseIdx_replicate,inside]
      simp only [AppHUDEvent.full,SVProgressHUD.track,SVProgressHUD.step,SVProgressHUD.of,duration,bind,
        Option.bind_some,Option.map_some,ended,SVProgressHUD.fadeInCompletion,SVProgressHUD.dismissAfter,
        ite_self,List.append_nil,Option.some.injEq] at ok
      exact ok.symm
    · simp [AppHUDEvent.full,SVProgressHUD.track,SVProgressHUD.step,SVProgressHUD.of,inside] at ok

def ProgressHUD.begunIn (drives : List (HUDDrive κ)) : List Bool :=
  Steps.watch ProgressHUD.track ProgressHUD.begun (.sharedView,[]) drives

theorem fullRun {events : List (AppHUDEvent κ)} {last : SVProgressHUD κ × List κ}
    (ran : Steps.run SVProgressHUD.track (.sharedView,[]) (events.map AppHUDEvent.full) = some last) :
    ∃ s fadeIns,Steps.run ProgressHUD.track (.sharedView,[]) (events.filterMap AppHUDEvent.driven) = some s ∧
      last = (.of s.1 (shownSince (ProgressHUD.begunIn (events.filterMap AppHUDEvent.driven))) fadeIns,s.2) := by
  induction events using List.reverseRecOn generalizing last with
  | nil =>
    cases Option.some.inj ran
    exact ⟨(.sharedView,[]),0,rfl,rfl⟩
  | append_singleton events e ih =>
    rw [List.map_append] at ran
    obtain ⟨before,found,stepped⟩ := Steps.runSnocSource ran
    obtain ⟨s,fadeIns,small,rfl⟩ := ih found
    rw [List.filterMap_append]
    cases driven : e.driven with
    | none =>
      obtain ⟨fadeIns',rfl⟩ := undrivenFull driven stepped
      simp only [List.filterMap_cons,driven,List.filterMap_nil,List.append_nil]
      exact ⟨s,fadeIns',small,rfl⟩
    | some d =>
      cases e <;> cases driven
      obtain ⟨fadeIns',followed⟩ := drivenFull s.1 (ProgressHUD.begunIn (events.filterMap AppHUDEvent.driven))
        fadeIns s.2 d
      obtain ⟨next,tracked,rfl⟩ := Option.map_eq_some_iff.mp (followed.symm.trans stepped)
      refine ⟨next,fadeIns',?_,?_⟩
      · simp only [List.filterMap_cons,AppHUDEvent.driven,List.filterMap_nil,Steps.runSnoc,small,
          Option.bind_some]
        exact tracked
      · simp only [List.filterMap_cons,AppHUDEvent.driven,List.filterMap_nil,ProgressHUD.begunIn,
          Steps.watchSnoc small]

theorem fullFollows {drives : List (HUDDrive κ)} {last : ProgressHUD κ × List κ}
    (ran : Steps.run ProgressHUD.track (.sharedView,[]) drives = some last) :
    ∃ full,Steps.run SVProgressHUD.track (.sharedView,[]) (drives.map HUDDrive.full) = some full := by
  have matched : ∀ (s : ProgressHUD κ × List κ) (t : SVProgressHUD κ × List κ) (d : HUDDrive κ) next,
      (∃ blocks fadeIns,t = (SVProgressHUD.of s.1 (shownSince blocks) fadeIns,s.2)) →
      ProgressHUD.track s d = some next →
      ∃ u,Steps.run SVProgressHUD.track t [d.full] = some u ∧
        ∃ blocks fadeIns,u = (SVProgressHUD.of next.1 (shownSince blocks) fadeIns,next.2) := by
    rintro s _ d next ⟨blocks,fadeIns,rfl⟩ stepped
    obtain ⟨fadeIns',followed⟩ := drivenFull s.1 blocks fadeIns s.2 d
    rw [Steps.runSingle,followed,stepped]
    exact ⟨_,rfl,_,_,rfl⟩
  obtain ⟨full,followed,_⟩ := Steps.simulates matched ⟨[],0,rfl⟩ ran
  exact ⟨full,(Steps.watchMap HUDDrive.full ran) ▸ followed⟩

def PostsScreen.drives (s : PostsScreen) : ScreenEvent → List (HUDDrive Handling)
  | .didSelectRow row => ((s.didSelectRowAt row).map (fun _ => .show)).toList
  | .response request response => ((s.requests[request]?.bind (fun asked => asked.call.completion response)).map
      (fun completion => .dismissWithDelay Constants.hudDismissTime ⟨request,completion⟩)).toList
  | .hud e => [.loop e]

def hudDrives (events : List ScreenEvent) : List (HUDDrive Handling) :=
  .show :: postsViewController.trace PostsScreen.drives () events

theorem hudDriven {events : List ScreenEvent} {i : ScreenRun}
    (ran : postsViewController.exec () events = some (.ok i)) :
    Steps.run ProgressHUD.track (.sharedView,[]) (hudDrives events) = some (i.state.hud,i.delivered) := by
  induction events using List.reverseRecOn generalizing i with
  | nil =>
    cases ran
    rfl
  | append_singleton events e ih =>
    obtain ⟨before,found,advanced⟩ := Machine.execSnocSource ran
    obtain ⟨s,out,stepped,rfl⟩ := Machine.advanceOk advanced
    rw [hudDrives,Machine.traceSnoc found,← List.cons_append,Steps.runAppend,← hudDrives,ih found,
      Option.bind_some]
    cases e with
    | didSelectRow row =>
      obtain ⟨_,selected,same⟩ := Option.map_eq_some_iff.mp stepped
      obtain ⟨post,_,rfl⟩ := Option.map_eq_some_iff.mp selected
      cases same
      simp only [PostsScreen.drives,selected,Option.map_some,Option.toList_some,Steps.runSingle]
      rfl
    | response request response =>
      have effect := screenStepped stepped
      generalize completions out = handled at effect
      cases effect with
      | responded asks _ captured =>
        simp only [PostsScreen.drives,asks,captured,Option.bind_some,Option.map_some,Option.toList_some,
          Steps.runSingle]
        rfl
    | hud e =>
      have effect := screenStepped stepped
      generalize completions out = handled at effect
      cases effect with
      | ran hudStepped =>
        simp only [PostsScreen.drives,Steps.runSingle,ProgressHUD.track,ProgressHUD.driven,hudStepped,
          Option.map_some]

/- The HUD of every app run is the whole SVProgressHUD under the calls of that run: it can
always follow, and wherever the fade-ins end it has run the same completions, shows
the same, has no timer, and counts the shows since the last dismissal. -/
theorem hudFaithful (F : Foundation Data) {events : List (AppEvent Data)} {s : App}
    (ran : App.run F events = some s) :
    (∃ full,Steps.run SVProgressHUD.track (.sharedView,[])
      ((hudDrives (screenEvents F events)).map HUDDrive.full) = some full) ∧
    ∀ (happened : List (AppHUDEvent Handling)) full,
      happened.filterMap AppHUDEvent.driven = hudDrives (screenEvents F events) →
      Steps.run SVProgressHUD.track (.sharedView,[]) (happened.map AppHUDEvent.full) = some full →
      full.2 = s.screen.delivered ∧ ∃ fadeIns,full.1 = .of s.screen.state.hud
        (shownSince (ProgressHUD.begunIn (hudDrives (screenEvents F events)))) fadeIns := by
  have driven := hudDriven (appRun ran).screen
  refine ⟨fullFollows driven,fun happened full only followed => ?_⟩
  obtain ⟨small,fadeIns,tracked,rfl⟩ := fullRun followed
  rw [only] at tracked ⊢
  cases Option.some.inj (tracked.symm.trans driven)
  exact ⟨rfl,fadeIns,rfl⟩

theorem tappedFaithful : ∃ full s,App.run plainFoundation tappedEvents = some s ∧
    Steps.run SVProgressHUD.track (.sharedView,[])
      ((hudDrives (screenEvents plainFoundation tappedEvents)).map HUDDrive.full) = some full ∧
    full.2 = s.screen.delivered ∧ full.1.activityCount = 0 := by
  have ran : App.run plainFoundation tappedEvents = some _ := rfl
  obtain ⟨⟨full,followed⟩,same⟩ := hudFaithful plainFoundation ran
  obtain ⟨handled,_,view⟩ := same ((hudDrives (screenEvents plainFoundation tappedEvents)).map .drive) full
    (by simp [AppHUDEvent.driven,List.filterMap_map,Function.comp_def])
    (by simpa [Function.comp_def,AppHUDEvent.full] using followed)
  exact ⟨full,_,ran,followed,handled,by rw [view]; rfl⟩

end BabylonHealthDemo
