import BabylonHealthDemo.App

/-! What the user of the app can rely on in every run: each tap is answered once, with
what its own retrieval owed it; nothing else is shown; a row keeps its post; and the
HUD comes down when everything has been answered. -/
namespace BabylonHealthDemo
open JsonTree PathStore Callbacks

theorem appContinues (F : Foundation Data) (xs ys : List (AppEvent Data)) :
    App.run F (xs ++ ys) = (App.run F xs).bind (fun s => Steps.run (App.step F) s ys) := by
  simp only [App.run,Option.bind_assoc,Steps.runAppend]

theorem screenExtends {F : Foundation Data} {xs : List (AppEvent Data)} {s : App}
    (ran : App.run F xs = some s) (ys : List (AppEvent Data)) :
    ∃ rest, screenEvents F (xs ++ ys) = screenEvents F xs ++ rest := by
  obtain ⟨first,launch,_⟩ := launched F
  simp only [App.run,launch,Option.bind_some] at ran
  simp only [screenEvents,launch,Option.elim_some,Steps.watchAppend ran]
  exact ⟨_,rfl⟩

def DismissCompletion.alert : DismissCompletion → Option Alert
  | .displayPosts (.failure error) => some ⟨Constants.errorTitle,error.localizedDescription⟩
  | .didSelectPostCell _ (.failure error) => some ⟨Constants.errorTitle,error.localizedDescription⟩
  | _ => none

def DismissCompletion.push : DismissCompletion → Option PostDetailsViewModel
  | .didSelectPostCell post (.success postDetails) => some (.make post postDetails)
  | _ => none

theorem viewFold (handled : List Handling) (v : PostsView) :
    (handled.foldl (fun v h => h.completion.run v) v).alerts =
        v.alerts ++ handled.filterMap (fun h => h.completion.alert) ∧
      (handled.foldl (fun v h => h.completion.run v) v).pushed =
        v.pushed ++ handled.filterMap (fun h => h.completion.push) := by
  induction handled generalizing v with
  | nil => simp
  | cons h rest ih =>
    obtain ⟨request,completion⟩ := h
    rw [List.foldl_cons,(ih _).1,(ih _).2]
    rcases completion with (posts | error) | ⟨post,(details | error)⟩ <;>
      simp [DismissCompletion.run,DismissCompletion.alert,DismissCompletion.push,PostsView.showErrorAlert]

theorem tableSource (handled : List Handling) (v : PostsView) :
    (handled.foldl (fun v h => h.completion.run v) v).postsDataSource = v.postsDataSource ∨
      ∃ h ∈ handled, h.completion = .displayPosts (.success
        (handled.foldl (fun v h => h.completion.run v) v).postsDataSource) := by
  induction handled generalizing v with
  | nil => exact Or.inl rfl
  | cons h rest ih =>
    rw [List.foldl_cons]
    rcases ih (h.completion.run v) with same | ⟨g,member,filled⟩
    · rw [same]
      obtain ⟨request,completion⟩ := h
      rcases completion with (posts | error) | ⟨post,(details | error)⟩
      · exact Or.inr ⟨_,List.mem_cons_self,rfl⟩
      · exact Or.inl rfl
      · exact Or.inl rfl
      · exact Or.inl rfl
    · exact Or.inr ⟨g,List.mem_cons_of_mem _ member,filled⟩

theorem alertOrPush (completion : DismissCompletion) : completion.alert = none ∨ completion.push = none := by
  rcases completion with (posts | error) | ⟨post,(details | error)⟩
  · exact Or.inl rfl
  · exact Or.inr rfl
  · exact Or.inl rfl
  · exact Or.inr rfl

theorem forall₂FilterMap {f : α → Option β} {g : α → γ} {R : β → γ → Prop} {xs : List α}
    (held : ∀ x ∈ xs, ∀ b, f x = some b → R b (g x)) :
    List.Forall₂ R (xs.filterMap f) ((xs.filter (fun x => (f x).isSome)).map g) := by
  induction xs with
  | nil => exact .nil
  | cons x xs ih =>
    have rest := ih (fun y member => held y (List.mem_cons_of_mem _ member))
    cases found : f x with
    | none =>
      rw [List.filterMap_cons_none found,List.filter_cons_of_neg (by simp [found])]
      exact rest
    | some b =>
      rw [List.filterMap_cons_some found,List.filter_cons_of_pos (by simp [found]),List.map_cons]
      exact .cons (held x List.mem_cons_self b found) rest

/- The error that a failed request shows; the errors of the two services never are. -/
def ScreenCall.failure : ScreenCall → DataError
  | .displayPosts => .unableToReadAllPostsData
  | .didSelectPostCell _ => .unableToReadPostDetailsData

def ScreenCall.refusal : ScreenCall → CallResponse
  | .displayPosts => .posts (.failure (.data .unableToReadAllPostsData))
  | .didSelectPostCell _ => .details (.failure (.data .unableToReadPostDetailsData))

theorem specCompletion {F : Foundation Data} {call : ScreenCall} {events : List (CallEvent Data)}
    {completion : DismissCompletion}
    (captured : call.completion (sequentialSpec F call.retrieval events) = some completion) :
    (∀ alert, completion.alert = some alert →
        sequentialSpec F call.retrieval events = call.refusal ∧
        alert = ⟨Constants.errorTitle,call.failure.errorDescription⟩) ∧
      (∀ p, completion.push = some p → ∃ post postDetails, call = .didSelectPostCell post ∧
        sequentialSpec F call.retrieval events = .details (.success postDetails) ∧ p = .make post postDetails) := by
  cases call with
  | displayPosts =>
    cases captured
    simp only [ScreenCall.retrieval,sequentialSpec,orFailure]
    split <;> simp [DismissCompletion.alert,DismissCompletion.push,SwiftError.localizedDescription,
      ScreenCall.failure,ScreenCall.refusal]
  | didSelectPostCell post =>
    cases captured
    simp only [ScreenCall.retrieval,sequentialSpec,orFailure]
    split <;> simp [DismissCompletion.alert,DismissCompletion.push,SwiftError.localizedDescription,
      ScreenCall.failure,ScreenCall.refusal]

theorem handledSpec {F : Foundation Data} {events : List (AppEvent Data)} {s : App}
    (ran : App.run F events = some s) (alive : s.provider.trap = none) {h : Handling}
    (member : h ∈ s.screen.delivered) :
    ∃ asked i, s.screen.state.requests[h.request]? = some asked ∧
      s.provider.instances[h.request]? = some i ∧ asked.call.retrieval = i.args ∧
      i.delivered = [sequentialSpec F i.args (events.filterMap (AppEvent.blockOf h.request))] ∧
      asked.call.completion (sequentialSpec F i.args (events.filterMap (AppEvent.blockOf h.request))) =
        some h.completion := by
  have agrees := appRun ran
  obtain ⟨lost,screen⟩ := screenRun agrees.screen
  obtain ⟨asked,response,found,_,answer,captured⟩ := completionAsked screen.accounted
    (List.mem_append_right _ (List.mem_append_left _ member))
  have there : h.request < s.provider.instances.length := by
    rw [← agrees.paired.count]
    exact (List.getElem?_eq_some_iff.mp found).1
  have owned : s.provider.instances[h.request]? = some s.provider.instances[h.request] :=
    List.getElem?_eq_getElem there
  generalize s.provider.instances[h.request] = i at owned
  have given := (agrees.responses _ _).mp answer
  rw [deliveredAt owned] at given
  have spec := ownDelivered agrees.provider alive owned
  rw [ownProvided ran] at spec
  have one := spec.resolve_left (List.ne_nil_of_mem given)
  rw [one,List.mem_singleton] at given
  subst given
  exact ⟨asked,i,found,owned,(agrees.paired.each _ _ _ found owned).1,one,captured⟩

theorem handledRange {events : List ScreenEvent} {i : ScreenRun}
    (ran : postsViewController.exec () events = some (.ok i)) :
    (i.delivered.map Handling.request).Nodup ∧
      ∀ h ∈ i.delivered, h.request < i.state.requests.length := by
  refine ⟨handledAtMostOnce ran,fun h member => ?_⟩
  obtain ⟨lost,agrees⟩ := screenRun ran
  obtain ⟨_,_,found,_⟩ := completionAsked agrees.accounted
    (List.mem_append_right _ (List.mem_append_left _ member))
  exact (List.getElem?_eq_some_iff.mp found).1

def App.AlertFrom (s : App) (alert : Alert) (k : Nat) : Prop :=
  ∃ asked, s.screen.state.requests[k]? = some asked ∧ s.provider.deliveredBy k = [asked.call.refusal] ∧
    alert = ⟨Constants.errorTitle,asked.call.failure.errorDescription⟩

def App.PushedFrom (s : App) (p : PostDetailsViewModel) (k : Nat) : Prop :=
  ∃ asked post postDetails, s.screen.state.requests[k]? = some asked ∧ asked.call = .didSelectPostCell post ∧
    s.provider.deliveredBy k = [.details (.success postDetails)] ∧ p = .make post postDetails

def App.alertsFrom (s : App) : List Nat :=
  (s.screen.delivered.filter (fun h => h.completion.alert.isSome)).map Handling.request

def App.pushesFrom (s : App) : List Nat :=
  (s.screen.delivered.filter (fun h => h.completion.push.isSome)).map Handling.request

theorem alertSource {F : Foundation Data} {events : List (AppEvent Data)} {s : App}
    (ran : App.run F events = some s) (alive : s.provider.trap = none) :
    List.Forall₂ s.AlertFrom s.screen.state.view.alerts s.alertsFrom := by
  obtain ⟨lost,screen⟩ := screenRun (appRun ran).screen
  rw [screen.view,(viewFold s.screen.delivered .new).1,PostsView.new,List.nil_append]
  refine forall₂FilterMap (fun h handled alert shown => ?_)
  obtain ⟨asked,i,found,owned,retrieval,one,captured⟩ := handledSpec ran alive handled
  rw [← retrieval] at captured one
  obtain ⟨answer,same⟩ := (specCompletion captured).1 alert shown
  refine ⟨asked,found,?_,same⟩
  rw [deliveredAt owned,one]
  exact congrArg (fun r => [r]) answer

theorem pushSource {F : Foundation Data} {events : List (AppEvent Data)} {s : App}
    (ran : App.run F events = some s) (alive : s.provider.trap = none) :
    List.Forall₂ s.PushedFrom s.screen.state.view.pushed s.pushesFrom := by
  obtain ⟨lost,screen⟩ := screenRun (appRun ran).screen
  rw [screen.view,(viewFold s.screen.delivered .new).2,PostsView.new,List.nil_append]
  refine forall₂FilterMap (fun h handled p shown => ?_)
  obtain ⟨asked,i,found,owned,retrieval,one,captured⟩ := handledSpec ran alive handled
  rw [← retrieval] at captured one
  obtain ⟨post,postDetails,call,answer,same⟩ := (specCompletion captured).2 p shown
  refine ⟨asked,post,postDetails,found,call,?_,same⟩
  rw [deliveredAt owned,one]
  exact congrArg (fun r => [r]) answer

theorem rowsSource {F : Foundation Data} {events : List (AppEvent Data)} {s : App}
    (ran : App.run F events = some s) (alive : s.provider.trap = none)
    (filled : s.screen.state.view.postsDataSource ≠ []) :
    s.provider.deliveredBy 0 = [.posts (.success s.screen.state.view.postsDataSource)] := by
  have agrees := appRun ran
  obtain ⟨lost,screen⟩ := screenRun agrees.screen
  rw [screen.view] at filled ⊢
  rcases tableSource s.screen.delivered .new with empty | ⟨h,handled,source⟩
  · exact absurd empty filled
  · have zero := displayFirst (rowsRun agrees.screen) screen.accounted
      (List.mem_append_right _ (List.mem_append_left _ handled)) source
    obtain ⟨asked,i,found,owned,_,one,captured⟩ := handledSpec ran alive handled
    rw [zero] at owned one captured
    rw [deliveredAt owned,one]
    generalize sequentialSpec F i.args _ = answer at captured
    rw [source] at captured
    obtain ⟨call,_⟩ := asked
    cases call <;> cases answer <;> simp_all [ScreenCall.completion]

theorem shownApart {F : Foundation Data} {events : List (AppEvent Data)} {s : App}
    (ran : App.run F events = some s) :
    (s.alertsFrom ++ s.pushesFrom).Nodup ∧ ∀ k ∈ s.alertsFrom ++ s.pushesFrom, k < s.screen.state.requests.length := by
  obtain ⟨once,range⟩ := handledRange (appRun ran).screen
  have apart : (s.screen.delivered.filter (fun h => h.completion.alert.isSome) ++
      s.screen.delivered.filter (fun h => h.completion.push.isSome)).Nodup := by
    refine List.nodup_append.mpr ⟨once.of_map.filter _,once.of_map.filter _,fun h alerts g pushes same => ?_⟩
    subst same
    rcases alertOrPush h.completion with none | none
    · simp [none] at alerts
    · simp [none] at pushes
  rw [App.alertsFrom,App.pushesFrom,← List.map_append]
  have handled : ∀ h ∈ s.screen.delivered.filter (fun h => h.completion.alert.isSome) ++
      s.screen.delivered.filter (fun h => h.completion.push.isSome), h ∈ s.screen.delivered := by
    intro h member
    rcases List.mem_append.mp member with part | part
    · exact List.mem_of_mem_filter part
    · exact List.mem_of_mem_filter part
  refine ⟨apart.map_on (fun h first g second same =>
    List.inj_on_of_nodup_map once (handled h first) (handled g second) same),fun k member => ?_⟩
  obtain ⟨h,part,rfl⟩ := List.mem_map.mp member
  exact range h (handled h part)

/- Everything on the screen comes from the one answer of a request of its own, and
no two alerts or details screens from the same one. -/
theorem nothingInvented (F : Foundation Data) {events : List (AppEvent Data)} {s : App}
    (ran : App.run F events = some s) (alive : s.provider.trap = none) :
    ∃ alertsFrom pushesFrom : List Nat, (alertsFrom ++ pushesFrom).Nodup ∧
      (∀ k ∈ alertsFrom ++ pushesFrom, k < s.screen.state.requests.length) ∧
      List.Forall₂ (fun alert k => ∃ asked, s.screen.state.requests[k]? = some asked ∧
        s.provider.deliveredBy k = [asked.call.refusal] ∧
        alert = ⟨Constants.errorTitle,asked.call.failure.errorDescription⟩)
        s.screen.state.view.alerts alertsFrom ∧
      List.Forall₂ (fun p k => ∃ asked post postDetails, s.screen.state.requests[k]? = some asked ∧
        asked.call = .didSelectPostCell post ∧ s.provider.deliveredBy k = [.details (.success postDetails)] ∧
        p = .make post postDetails) s.screen.state.view.pushed pushesFrom ∧
      (s.screen.state.view.postsDataSource ≠ [] →
        s.provider.deliveredBy 0 = [.posts (.success s.screen.state.view.postsDataSource)]) ∧
      s.screen.state.view.alerts.length + s.screen.state.view.pushed.length ≤
        s.screen.state.requests.length := by
  obtain ⟨apart,range⟩ := shownApart ran
  have alerts := alertSource ran alive
  have pushes := pushSource ran alive
  refine ⟨_,_,apart,range,alerts,pushes,rowsSource ran alive,?_⟩
  have inside : s.alertsFrom ++ s.pushesFrom ⊆ List.range s.screen.state.requests.length :=
    fun k member => List.mem_range.mpr (range k member)
  rw [alerts.length_eq,pushes.length_eq,← List.length_append]
  simpa using (apart.subperm inside).length_le

def offlineEvents : List (AppEvent Json) :=
  [.hud .operation,.block 0 (.posts (.reply ⟨none,some (.external "offline")⟩)),
    .block 0 (.posts (.read .timeout)),.hud .operation,.hud (.wait Constants.hudDismissTime),
    .hud (.delayOver 0),.hud (.fadeOutEnded 0)]

theorem offlineShown : ∃ s, App.run plainFoundation offlineEvents = some s ∧
    s.screen.state.view = ⟨[],[],[⟨"Error",DataError.unableToReadAllPostsData.errorDescription⟩]⟩ ∧
    s.screen.state.view.alerts.length + s.screen.state.view.pushed.length ≤
      s.screen.state.requests.length := by
  have ran : App.run plainFoundation offlineEvents = some _ := rfl
  obtain ⟨_,_,_,_,_,_,_,bound⟩ := nothingInvented plainFoundation ran rfl
  exact ⟨_,ran,rfl,bound⟩

theorem settledAccounted {events : List ScreenEvent} {i : ScreenRun}
    (ran : postsViewController.exec () events = some (.ok i)) (settled : i.state.hud.Settled)
    (undisturbed : Undisturbed (hudMoments events)) :
    Accounted events i.state.requests i.delivered := by
  obtain ⟨lost,agrees⟩ := screenRun ran
  have accounted := agrees.accounted
  rw [settledFlight settled,agrees.undisturbed.mp undisturbed,List.nil_append,List.append_nil] at accounted
  exact accounted

def ScreenEvent.row : ScreenEvent → Option Nat
  | .didSelectRow row => some row
  | _ => none

def AppEvent.row : AppEvent Data → Option Nat
  | .didSelectRow row => some row
  | _ => none

theorem requestsMade {events : List ScreenEvent} {i : ScreenRun}
    (ran : postsViewController.exec () events = some (.ok i)) :
    i.state.requests.length = (events.filterMap ScreenEvent.row).length + 1 := by
  refine (Machine.execInvariant (fun events i =>
    i.state.requests.length = (events.filterMap ScreenEvent.row).length + 1) ?_ ?_ ran).1
  · intro i spawned
    cases spawned
    rfl
  · intro events i e next count _ advanced
    obtain ⟨_,_,stepped,rfl⟩ := Machine.advanceOk advanced
    have effect := screenStepped stepped
    generalize completions _ = handled at effect
    rw [List.filterMap_append,List.length_append]
    cases effect with
    | retrieved call =>
      simp only [PostsScreen.retrieve,List.length_append,List.length_singleton,count]
      rfl
    | responded _ _ _ => exact (List.length_set).trans count
    | ran _ => exact count

theorem rowsSeen {F : Foundation Data} {events : List (AppEvent Data)} {s : App}
    (ran : App.run F events = some s) :
    (screenEvents F events).filterMap ScreenEvent.row = events.filterMap AppEvent.row := by
  obtain ⟨first,launch,_⟩ := launched F
  simp only [App.run,launch,Option.bind_some] at ran
  simp only [screenEvents,launch,Option.elim_some]
  refine Steps.history (fun events _ => (Steps.watch (App.step F) (App.seen F) first events).filterMap
    ScreenEvent.row = events.filterMap AppEvent.row) rfl ?_ ran
  intro events before e next found same stepped
  rw [Steps.watchSnoc found,List.filterMap_append,List.filterMap_append,same]
  congr 1
  cases e with
  | didSelectRow row => rfl
  | hud e => rfl
  | block call e =>
    simp only [App.seen]
    cases before.provider.step (dataProvider F) (.step call e) with
    | none => rfl
    | some provider =>
      rw [Option.elim_some,List.filterMap_map]
      exact List.filterMap_eq_nil_iff.mpr (fun _ _ => rfl)

/- Every tap is answered exactly once, with what the blocks of its own retrieval owe
it, whatever else was going on. -/
theorem everyRequestHandled (F : Foundation Data) {events : List (AppEvent Data)} {s : App}
    (ran : App.run F events = some s) (alive : s.provider.trap = none)
    (answered : ∀ i ∈ s.provider.instances, Settled F i.state) (settled : s.screen.state.hud.Settled)
    (undisturbed : Undisturbed (hudMoments (screenEvents F events))) :
    (s.screen.delivered.map Handling.request).Perm
      (List.range ((events.filterMap AppEvent.row).length + 1)) ∧
    (∀ h ∈ s.screen.delivered, ∃ asked, s.screen.state.requests[h.request]? = some asked ∧
      asked.call.completion (sequentialSpec F asked.call.retrieval
        (events.filterMap (AppEvent.blockOf h.request))) = some h.completion) ∧
    s.screen.state.view = s.screen.delivered.foldl (fun v h => h.completion.run v) .new := by
  have agrees := appRun ran
  have accounted := settledAccounted agrees.screen settled undisturbed
  obtain ⟨lost,screen⟩ := screenRun agrees.screen
  refine ⟨?_,?_,screen.view⟩
  · rw [← rowsSeen ran,← requestsMade agrees.screen]
    obtain ⟨once,range⟩ := handledRange agrees.screen
    refine (List.perm_ext_iff_of_nodup once List.nodup_range).mpr fun k => ?_
    rw [List.mem_range]
    constructor
    · intro member
      obtain ⟨h,handled,rfl⟩ := List.mem_map.mp member
      exact range h handled
    · intro inside
      have there := List.getElem?_eq_getElem (agrees.paired.count ▸ inside : k < s.provider.instances.length)
      have owed := callSettled (ownAgrees agrees.provider alive there)
        (answered _ (List.getElem_mem _))
      obtain ⟨_,completion,_,_,_,handled⟩ := accounted.issued k _
        ((agrees.responses k _).mpr (by rw [deliveredAt there,owed]; exact List.mem_cons_self))
      exact List.mem_map_of_mem handled
  · intro h handled
    obtain ⟨asked,i,found,_,retrieval,_,captured⟩ := handledSpec ran alive handled
    exact ⟨asked,found,by rw [retrieval]; exact captured⟩

theorem postsDone (F : Foundation Data) : Settled F (.posts ⟨.completed,none⟩) := by
  rintro ((reply | e) | e) _ <;> rfl

theorem detailsDone (F : Foundation Data) (userId postId : Int64) {vars : PostDetailsVars}
    (finished : vars.dispatchGroup.run = none) :
    Settled F (.details ⟨userId,postId,⟨vars,.completed,.completed⟩,none⟩) := by
  rintro (e | ((reply | reply | _) | e)) _
  · rfl
  · rfl
  · rfl
  · simp [dataProvider,RetrievePostDetails.step,LoadPostDetails.step,finished]
  · rfl

theorem tappedHandled : ∃ s, App.run plainFoundation tappedEvents = some s ∧
    (s.screen.delivered.map Handling.request).Perm (List.range 2) ∧
    s.screen.state.view = s.screen.delivered.foldl (fun v h => h.completion.run v) .new := by
  have ran : App.run plainFoundation tappedEvents = some _ := rfl
  obtain ⟨once,_,view⟩ := everyRequestHandled plainFoundation ran rfl
    (List.forall_mem_cons.mpr ⟨postsDone _,List.forall_mem_singleton.mpr (detailsDone _ 1 4 rfl)⟩)
    ⟨rfl,rfl,rfl⟩ (by decide)
  exact ⟨_,ran,once,view⟩

theorem rowsStay (F : Foundation Data) {events more : List (AppEvent Data)} {s t : App}
    (ran : App.run F events = some s) (later : App.run F (events ++ more) = some t)
    (filled : s.screen.state.view.postsDataSource ≠ []) :
    t.screen.state.view.postsDataSource = s.screen.state.view.postsDataSource ∧
    (∀ (k : Nat) i, k ≠ 0 → t.provider.instances[k]? = some i →
      ∃ post ∈ s.screen.state.view.postsDataSource, i.args = .retrievePostDetails post.userId post.postId ∧
        ∃ asked, t.screen.state.requests[k]? = some asked ∧ asked.call = .didSelectPostCell post) := by
  have agrees := appRun later
  obtain ⟨rest,same⟩ := screenExtends ran more
  have screen := agrees.screen
  rw [same] at screen
  have kept := tableKept (appRun ran).screen screen filled
  refine ⟨kept,?_⟩
  intro k i tapped owned
  have asks := List.getElem?_eq_getElem (agrees.paired.count.symm ▸ (List.getElem?_eq_some_iff.mp owned).1 :
    k < t.screen.state.requests.length)
  obtain ⟨post,row,call⟩ := (rowsRun agrees.screen).tapped k _ tapped asks
  refine ⟨post,kept ▸ row,?_,_,asks,call⟩
  rw [← (agrees.paired.each k _ i asks owned).1,call]
  rfl

theorem tappedStay : ∃ s t, App.run plainFoundation (tappedEvents.take 6) = some s ∧
    App.run plainFoundation (tappedEvents.take 6 ++ tappedEvents.drop 6) = some t ∧
    s.screen.state.view.postsDataSource = [samplePost 2,samplePost 4] ∧
    t.screen.state.view.postsDataSource = s.screen.state.view.postsDataSource := by
  have ran : App.run plainFoundation (tappedEvents.take 6) = some _ := rfl
  have later : App.run plainFoundation (tappedEvents.take 6 ++ tappedEvents.drop 6) = some _ := rfl
  exact ⟨_,_,ran,later,rfl,(rowsStay plainFoundation ran later (List.cons_ne_nil _ _)).1⟩

def afterWait (d : Nat × AppEvent Data) : List (AppEvent Data) := [.hud (.wait d.1),d.2]

theorem hudRuns {F : Foundation Data} {s : App} (alive : s.provider.trap = none)
    (busy : ¬ s.screen.state.hud.Settled) :
    ∃ milliseconds e next, e.waits = false ∧
      Steps.run (App.step F) s (afterWait (milliseconds,.hud e)) = some next ∧ next.provider = s.provider ∧
      next.screen.state.hud.blocks < s.screen.state.hud.blocks := by
  obtain ⟨milliseconds,e,hud,handled,moves,stepped⟩ := hudPending busy
  obtain ⟨waited,_,_,_,first,later⟩ := hudTaken (F := F) (e := .wait milliseconds) alive rfl
  obtain ⟨block,_,_,_,second,same⟩ := hudTaken (F := F)
    (s := ⟨s.provider,⟨(),waited.1,s.screen.delivered ++ completions waited.2⟩⟩) alive
    (show waited.1.hud.step e = some (hud,handled) by rw [later]; exact stepped)
  have spent := hudSpends stepped
  rw [moves,Bool.not_false,Bool.toNat_true] at spent
  refine ⟨milliseconds,e,⟨s.provider,⟨(),block.1,s.screen.delivered ++ completions waited.2 ++
    completions block.2⟩⟩,moves,?_,rfl,?_⟩
  · simp only [afterWait,Steps.run,first,second,Option.bind_some]
  · have bound : hud.blocks < s.screen.state.hud.blocks := Nat.lt_of_succ_le (Nat.le_of_eq spent)
    rw [same]
    exact bound

def App.Resting (s : App) : Prop :=
  (∀ i ∈ s.provider.instances, i.delivered ≠ []) ∧ s.screen.state.hud.Settled

theorem restingHidden {F : Foundation Data} {events : List (AppEvent Data)} {s : App}
    (ran : App.run F events = some s) (resting : s.Resting) : s.screen.state.hud.alpha = 0 := by
  have agrees := appRun ran
  refine settledDown (hudRun agrees.screen) resting.2 ?_
  rintro ⟨asked,member,waiting⟩
  obtain ⟨k,found⟩ := List.mem_iff_getElem?.mp member
  have owned := List.getElem?_eq_getElem (agrees.paired.count ▸ (List.getElem?_eq_some_iff.mp found).1 :
    k < s.provider.instances.length)
  have answer := (agrees.paired.each k asked _ found owned).2
  have given := resting.1 _ (List.getElem_mem (agrees.paired.count ▸ (List.getElem?_eq_some_iff.mp found).1 :
    k < s.provider.instances.length))
  rw [waiting] at answer
  exact given (List.isEmpty_iff.mp (by simpa using answer.symm))

theorem hudComesDown (F : Foundation Data) {events : List (AppEvent Data)} {s : App}
    (ran : App.run F events = some s) (alive : s.provider.trap = none)
    (answered : ∀ i ∈ s.provider.instances, Settled F i.state) :
    (s.screen.state.hud.Settled → s.screen.state.hud.alpha = 0) ∧
    ∃ more t, (∀ e ∈ more, ∃ h, e = .hud h) ∧ App.run F (events ++ more) = some t ∧
      t.screen.state.hud.Settled ∧ t.screen.state.hud.alpha = 0 := by
  have down : ∀ {events : List (AppEvent Data)} {t : App}, App.run F events = some t →
      t.provider = s.provider → t.screen.state.hud.Settled → t.screen.state.hud.alpha = 0 := by
    intro events t ranT same settled
    refine restingHidden ranT ⟨fun i member => ?_,settled⟩
    obtain ⟨call,found⟩ := List.mem_iff_getElem?.mp member
    rw [callSettled (ownAgrees (appRun ranT).provider (same ▸ alive) found) (answered i (same ▸ member))]
    exact List.cons_ne_nil _ _
  refine ⟨down ran rfl,?_⟩
  have progress : ∀ t, (∃ events, App.run F events = some t ∧ t.provider = s.provider) →
      ¬ t.screen.state.hud.Settled → ∃ d next, (∃ h, d.2 = AppEvent.hud h) ∧
        Steps.run (App.step F) t (afterWait d) = some next ∧
        (∃ events, App.run F events = some next ∧ next.provider = s.provider) ∧
        next.screen.state.hud.blocks < t.screen.state.hud.blocks := by
    rintro t ⟨events,ranT,same⟩ busy
    obtain ⟨milliseconds,e,next,_,stepped,provider,less⟩ :=
      hudRuns (F := F) (same ▸ alive : t.provider.trap = none) busy
    refine ⟨(milliseconds,.hud e),next,⟨e,rfl⟩,stepped,⟨events ++ afterWait (milliseconds,.hud e),?_,
      provider.trans same⟩,less⟩
    rw [appContinues,ranT]
    exact stepped
  obtain ⟨more,t,only,_,ranMore,⟨_,ranT,same⟩,settled⟩ := Steps.drains _ _ _ _ progress ⟨events,ran,rfl⟩
  refine ⟨more.flatMap afterWait,t,?_,?_,settled,down ranT same settled⟩
  · intro e member
    obtain ⟨d,inside,part⟩ := List.mem_flatMap.mp member
    rcases List.mem_pair.mp part with rfl | rfl
    · exact ⟨_,rfl⟩
    · exact only d inside
  · rw [appContinues,ran]
    exact (Steps.runFlat _ _ _).symm.trans ranMore

theorem loadedComesDown : ∃ s more t, App.run plainFoundation (tappedEvents.take 2) = some s ∧
    s.screen.state.hud.alpha = 1 ∧ App.run plainFoundation (tappedEvents.take 2 ++ more) = some t ∧
    t.screen.state.hud.alpha = 0 := by
  have ran : App.run plainFoundation (tappedEvents.take 2) = some _ := rfl
  obtain ⟨_,more,t,_,later,_,down⟩ := hudComesDown plainFoundation ran rfl
    (List.forall_mem_singleton.mpr (postsDone _))
  exact ⟨_,more,t,ran,rfl,later,down⟩

end BabylonHealthDemo
