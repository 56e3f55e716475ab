import BabylonHealthDemo.ProgressHUD

/-! PostsViewController between the data provider and the screen. Every request shows
the HUD, and every response is handled in the completion of a dismissal of it. Rows
can be selected at any time, responses come in any order, and the run loop runs the
blocks of the HUD in between. A response ends as a new table, a pushed details
screen or an alert, unless the HUD was shown again while its dismissal faded out. -/
namespace BabylonHealthDemo
open Callbacks

namespace Constants
def hudDismissTime : Nat := 300
def errorTitle : String := "Error"
end Constants

structure PostDetailsViewModel where
  postAuthor : String
  postBody : String
  postNumComments : Nat
  deriving DecidableEq, Repr

def PostDetailsViewModel.make (post : Post) (postDetails : PostDetails) : PostDetailsViewModel :=
  ⟨postDetails.user.name,post.body,postDetails.comments.length⟩

structure Alert where
  title : String
  message : String
  deriving DecidableEq, Repr

structure PostsView where
  postsDataSource : List Post
  pushed : List PostDetailsViewModel
  alerts : List Alert
  deriving DecidableEq, Repr

def PostsView.new : PostsView := ⟨[],[],[]⟩

def PostsView.showErrorAlert (v : PostsView) (message : String) : PostsView :=
  {v with alerts := v.alerts ++ [⟨Constants.errorTitle,message⟩]}

/- The closures given to dismiss, with what they capture. -/
inductive DismissCompletion where
  | displayPosts (response : ResponseType (List Post))
  | didSelectPostCell (post : Post) (response : ResponseType PostDetails)
  deriving DecidableEq, Repr

def DismissCompletion.run (v : PostsView) : DismissCompletion → PostsView
  | .displayPosts response => match response with
    | .success posts => {v with postsDataSource := posts}
    | .failure error => v.showErrorAlert error.localizedDescription
  | .didSelectPostCell post response => match response with
    | .success postDetails => {v with pushed := v.pushed ++ [.make post postDetails]}
    | .failure error => v.showErrorAlert error.localizedDescription

inductive ScreenCall where
  | displayPosts
  | didSelectPostCell (post : Post)
  deriving DecidableEq, Repr

def ScreenCall.retrieval : ScreenCall → CallArgs
  | .displayPosts => .retrieveAllPosts
  | .didSelectPostCell post => .retrievePostDetails post.userId post.postId

def ScreenCall.completion : ScreenCall → CallResponse → Option DismissCompletion
  | .displayPosts,.posts response => some (.displayPosts response)
  | .didSelectPostCell post,.details response => some (.didSelectPostCell post response)
  | _,_ => none

structure ScreenRequest where
  call : ScreenCall
  answered : Bool
  deriving DecidableEq, Repr

structure Handling where
  request : Nat
  completion : DismissCompletion
  deriving DecidableEq, Repr

structure PostsScreen where
  requests : List ScreenRequest
  hud : ProgressHUD Handling
  view : PostsView

abbrev ScreenBlock := Out CallArgs PostsScreen Handling

inductive ScreenEvent where
  | didSelectRow (row : Nat)
  | response (request : Nat) (response : CallResponse)
  | hud (event : HUDEvent)
  deriving DecidableEq, Repr

namespace PostsScreen

def retrieve (s : PostsScreen) (call : ScreenCall) : ScreenBlock :=
  ({s with hud := s.hud.showProgress,requests := s.requests ++ [⟨call,false⟩]},[.act call.retrieval])

def displayPosts (s : PostsScreen) : ScreenBlock := s.retrieve .displayPosts

def didSelectPostCell (s : PostsScreen) (post : Post) : ScreenBlock := s.retrieve (.didSelectPostCell post)

def viewDidLoad : ScreenBlock := displayPosts ⟨[],.sharedView,.new⟩

def didSelectRowAt (s : PostsScreen) (row : Nat) : Option ScreenBlock :=
  s.view.postsDataSource[row]?.map s.didSelectPostCell

def respond (s : PostsScreen) (request : Nat) (response : CallResponse) : Option ScreenBlock := do
  let asked ← s.requests[request]?
  let completion ← asked.call.completion response
  if asked.answered then none
  else some ({s with
    requests := s.requests.set request {asked with answered := true},
    hud := s.hud.dismissWithDelay Constants.hudDismissTime ⟨request,completion⟩},[])

def runLoop (s : PostsScreen) (e : HUDEvent) : Option ScreenBlock := do
  let (hud,ran) ← s.hud.step e
  some ({s with hud := hud,view := ran.foldl (fun v h => h.completion.run v) s.view},ran.map .complete)

end PostsScreen

def postsViewController : Machine Unit PostsScreen ScreenEvent CallArgs Handling Trap where
  start _ := .ok PostsScreen.viewDidLoad
  step s
    | .didSelectRow row => (s.didSelectRowAt row).map .ok
    | .response request response => (s.respond request response).map .ok
    | .hud e => (s.runLoop e).map .ok

abbrev ScreenRun := Instance Unit PostsScreen Handling

def PostsScreen.moments (s : PostsScreen) : ScreenEvent → List HUDMoment
  | .hud e => s.hud.moments e
  | _ => []

def hudMoments (events : List ScreenEvent) : List HUDMoment :=
  postsViewController.trace PostsScreen.moments () events

/- Where each response of a run has gone: none is there twice, all are there, and
nothing else is. -/
structure Accounted (events : List ScreenEvent) (requests : List ScreenRequest) (all : List Handling) :
    Prop where
  once : (all.map Handling.request).Nodup
  known : ∀ h ∈ all, ∃ asked response, requests[h.request]? = some asked ∧ asked.answered = true ∧
    .response h.request response ∈ events
  issued : ∀ request response, .response request response ∈ events →
    ∃ asked completion, requests[request]? = some asked ∧ asked.answered = true ∧
      asked.call.completion response = some completion ∧ ⟨request,completion⟩ ∈ all

theorem accountedPerm {events : List ScreenEvent} {requests : List ScreenRequest} {all more : List Handling}
    (accounted : Accounted events requests all) (same : all.Perm more) : Accounted events requests more where
  once := (same.map _).nodup_iff.mp accounted.once
  known h member := accounted.known h (same.mem_iff.mpr member)
  issued request response answer := by
    obtain ⟨asked,completion,found,answered,captured,member⟩ := accounted.issued request response answer
    exact ⟨asked,completion,found,answered,captured,same.mem_iff.mp member⟩

theorem accountedRetrieve {events : List ScreenEvent} {requests : List ScreenRequest} {all : List Handling}
    (accounted : Accounted events requests all) (row : Nat) (asked : ScreenRequest) :
    Accounted (events ++ [.didSelectRow row]) (requests ++ [asked]) all where
  once := accounted.once
  known h member := by
    obtain ⟨earlier,response,found,answered,answer⟩ := accounted.known h member
    exact ⟨earlier,response,by rw [List.getElem?_append_left (List.getElem?_eq_some_iff.mp found).1,found],
      answered,List.mem_append_left _ answer⟩
  issued request response answer := by
    have old : .response request response ∈ events := by simpa using answer
    obtain ⟨earlier,completion,found,rest⟩ := accounted.issued request response old
    exact ⟨earlier,completion,
      by rw [List.getElem?_append_left (List.getElem?_eq_some_iff.mp found).1,found],rest⟩

theorem accountedRunLoop {events : List ScreenEvent} {requests : List ScreenRequest} {all : List Handling}
    (accounted : Accounted events requests all) (e : HUDEvent) :
    Accounted (events ++ [.hud e]) requests all where
  once := accounted.once
  known h member := by
    obtain ⟨asked,response,found,answered,answer⟩ := accounted.known h member
    exact ⟨asked,response,found,answered,List.mem_append_left _ answer⟩
  issued request response answer := accounted.issued request response (by simpa using answer)

theorem accountedRespond {events : List ScreenEvent} {requests : List ScreenRequest} {all : List Handling}
    (accounted : Accounted events requests all) {request : Nat} {response : CallResponse}
    {asked : ScreenRequest} {completion : DismissCompletion} (found : requests[request]? = some asked)
    (unanswered : asked.answered = false) (captured : asked.call.completion response = some completion) :
    Accounted (events ++ [.response request response]) (requests.set request {asked with answered := true})
      (⟨request,completion⟩ :: all) := by
  have inside := (List.getElem?_eq_some_iff.mp found).1
  -- no other response has come for this request
  have fresh : ∀ other earlier, requests[other]? = some earlier → earlier.answered = true →
      request ≠ other := by
    rintro other earlier foundOther answered rfl
    cases found.symm.trans foundOther
    rw [unanswered] at answered
    cases answered
  refine ⟨?_,?_,?_⟩
  · rw [List.map_cons,List.nodup_cons]
    refine ⟨fun member => ?_,accounted.once⟩
    obtain ⟨h,there,same⟩ := List.mem_map.mp member
    obtain ⟨earlier,_,foundOther,answered,_⟩ := accounted.known h there
    exact fresh _ earlier foundOther answered same.symm
  · intro h member
    rcases List.mem_cons.mp member with rfl | old
    · exact ⟨_,response,List.getElem?_set_self inside,rfl,by simp⟩
    · obtain ⟨earlier,answer,foundOther,answered,there⟩ := accounted.known h old
      refine ⟨earlier,answer,?_,answered,List.mem_append_left _ there⟩
      rw [List.getElem?_set_ne (fresh _ earlier foundOther answered)]
      exact foundOther
  · intro other answer member
    rcases List.mem_append.mp member with old | new
    · obtain ⟨earlier,handled,foundOther,answered,rest,there⟩ := accounted.issued other answer old
      refine ⟨earlier,handled,?_,answered,rest,List.mem_cons_of_mem _ there⟩
      rw [List.getElem?_set_ne (fresh _ earlier foundOther answered)]
      exact foundOther
    · cases List.mem_singleton.mp new
      exact ⟨_,completion,List.getElem?_set_self inside,rfl,captured,List.mem_cons_self⟩

structure ScreenAgrees (events : List ScreenEvent) (lost : List Handling) (i : ScreenRun) : Prop where
  alpha : AlphaAgrees (hudMoments events) i.state.hud
  undisturbed : Undisturbed (hudMoments events) ↔ lost = []
  accounted : Accounted events i.state.requests (i.state.hud.flight ++ (i.delivered ++ lost))
  view : i.state.view = i.delivered.foldl (fun v h => h.completion.run v) .new

inductive ScreenStepped (s : PostsScreen) : ScreenEvent → PostsScreen → List Handling → Prop where
  | retrieved {row} (call : ScreenCall) : ScreenStepped s (.didSelectRow row) (s.retrieve call).1 []
  | responded {request response asked completion} (found : s.requests[request]? = some asked)
      (unanswered : asked.answered = false) (captured : asked.call.completion response = some completion) :
      ScreenStepped s (.response request response) {s with
        requests := s.requests.set request {asked with answered := true},
        hud := s.hud.dismissWithDelay Constants.hudDismissTime ⟨request,completion⟩} []
  | ran {e hud ran} (stepped : s.hud.step e = some (hud,ran)) :
      ScreenStepped s (.hud e)
        {s with hud := hud,view := ran.foldl (fun v h => h.completion.run v) s.view} ran

theorem screenStepped {s next : PostsScreen} {e : ScreenEvent} {out : List (Effect CallArgs Handling)}
    (ok : postsViewController.step s e = some (.ok (next,out))) :
    ScreenStepped s e next (completions out) := by
  cases e with
  | didSelectRow row =>
    obtain ⟨_,selected,same⟩ := Option.map_eq_some_iff.mp ok
    obtain ⟨post,_,rfl⟩ := Option.map_eq_some_iff.mp selected
    cases same
    exact .retrieved (.didSelectPostCell post)
  | response request response =>
    obtain ⟨_,responded,same⟩ := Option.map_eq_some_iff.mp ok
    simp only [PostsScreen.respond,bind,Option.bind_eq_some_iff] at responded
    obtain ⟨asked,found,completion,captured,last⟩ := responded
    split at last <;> try contradiction
    rename_i unanswered
    cases Option.some.inj last
    cases same
    exact .responded found (by simpa using unanswered) captured
  | hud e =>
    obtain ⟨_,ran,same⟩ := Option.map_eq_some_iff.mp ok
    simp only [PostsScreen.runLoop,bind,Option.bind_eq_some_iff] at ran
    obtain ⟨⟨hud,ran⟩,stepped,last⟩ := ran
    cases Option.some.inj last
    cases same
    rw [completionsMap]
    exact .ran stepped

theorem screenStarts : ScreenAgrees [] [] ⟨(),PostsScreen.viewDidLoad.1,[]⟩ where
  alpha := rfl
  undisturbed := by simp [hudMoments,Machine.trace,Undisturbed]
  accounted := by
    refine ⟨?_,?_,?_⟩ <;>
      simp [PostsScreen.viewDidLoad,PostsScreen.displayPosts,PostsScreen.retrieve,ProgressHUD.flight,
        ProgressHUD.showProgress,ProgressHUD.sharedView,ProgressHUD.queued]
  view := rfl

theorem screenQuiet {events : List ScreenEvent} {lost : List Handling} {i : ScreenRun}
    (agrees : ScreenAgrees events lost i) {e : ScreenEvent} {next : PostsScreen}
    (quiet : hudMoments (events ++ [e]) = hudMoments events) (alpha : next.hud.alpha = i.state.hud.alpha)
    (view : next.view = i.state.view)
    (accounted : Accounted (events ++ [e]) next.requests (next.hud.flight ++ (i.delivered ++ lost))) :
    ScreenAgrees (events ++ [e]) lost ⟨i.args,next,i.delivered ++ []⟩ := by
  rw [List.append_nil]
  refine ⟨?_,quiet ▸ agrees.undisturbed,accounted,view.trans agrees.view⟩
  rw [AlphaAgrees,quiet,alpha]
  exact agrees.alpha

theorem screenRun {events : List ScreenEvent} {i : ScreenRun}
    (ran : postsViewController.exec () events = some (.ok i)) : ∃ lost, ScreenAgrees events lost i := by
  induction events using List.reverseRecOn generalizing i with
  | nil =>
    cases ran
    exact ⟨[],screenStarts⟩
  | append_singleton events e ih =>
    obtain ⟨before,found,advanced⟩ := Machine.execSnocSource ran
    obtain ⟨lost,agrees⟩ := ih found
    obtain ⟨s,out,stepped,rfl⟩ := Machine.advanceOk advanced
    have moments : hudMoments (events ++ [e]) = hudMoments events ++ before.state.moments e :=
      Machine.traceSnoc found e
    have effect := screenStepped stepped
    generalize completions out = handled at effect
    cases effect with
    | retrieved call =>
      refine ⟨lost,screenQuiet agrees (moments.trans (List.append_nil _)) rfl rfl ?_⟩
      simp only [PostsScreen.retrieve,flightShow]
      exact accountedRetrieve agrees.accounted _ _
    | @responded request response asked completion asks unanswered captured =>
      refine ⟨lost,screenQuiet agrees (moments.trans (List.append_nil _)) rfl rfl ?_⟩
      refine accountedPerm (accountedRespond agrees.accounted asks unanswered captured) ?_
      exact (flightDismiss _ _ _).symm.append_right (before.delivered ++ lost)
    | @ran e hud handled hudStepped =>
      simp only [PostsScreen.moments] at moments
      refine ⟨lost ++ before.state.hud.dropped e,?_,?_,?_,?_⟩
      · rw [moments]
        exact alphaStep agrees.alpha hudStepped
      · rw [moments,droppedStep agrees.alpha hudStepped,agrees.undisturbed,List.append_eq_nil_iff]
      · refine accountedPerm (accountedRunLoop agrees.accounted e) ?_
        refine ((flightStep hudStepped).append_right _).trans (List.perm_iff_count.mpr fun h => ?_)
        simp only [List.count_append]
        omega
      · rw [List.foldl_append,← agrees.view]

theorem handledAtMostOnce {events : List ScreenEvent} {i : ScreenRun}
    (ran : postsViewController.exec () events = some (.ok i)) :
    (i.delivered.map Handling.request).Nodup := by
  obtain ⟨lost,agrees⟩ := screenRun ran
  have once := agrees.accounted.once
  rw [List.map_append,List.map_append] at once
  exact once.of_append_right.of_append_left

def HandledOnce (events : List ScreenEvent) (i : ScreenRun) : Prop :=
  ∀ request response, .response request response ∈ events →
    ∃ asked completion, i.state.requests[request]? = some asked ∧
      asked.call.completion response = some completion ∧
      i.delivered.filter (fun h => h.request = request) = [⟨request,completion⟩]

theorem filterOnce {all : List Handling} (once : (all.map Handling.request).Nodup) {h : Handling}
    (member : h ∈ all) : all.filter (fun other => other.request = h.request) = [h] := by
  induction all with
  | nil => cases member
  | cons first rest ih =>
    rw [List.map_cons,List.nodup_cons] at once
    obtain ⟨fresh,others⟩ := once
    rcases List.mem_cons.mp member with rfl | inside
    · rw [List.filter_cons_of_pos (by simp),List.filter_eq_nil_iff.mpr]
      intro other there same
      exact fresh (List.mem_map.mpr ⟨other,there,by simpa using same⟩)
    · rw [List.filter_cons_of_neg,ih others inside]
      intro same
      exact fresh (List.mem_map.mpr ⟨h,inside,by simpa using (of_decide_eq_true same).symm⟩)

theorem responsesHandled {events : List ScreenEvent} {i : ScreenRun}
    (ran : postsViewController.exec () events = some (.ok i)) (settled : i.state.hud.Settled) :
    i.state.view = i.delivered.foldl (fun v h => h.completion.run v) .new ∧
      (HandledOnce events i ↔ Undisturbed (hudMoments events)) := by
  obtain ⟨lost,agrees⟩ := screenRun ran
  refine ⟨agrees.view,?_⟩
  have accounted := agrees.accounted
  rw [settledFlight settled,List.nil_append] at accounted
  rw [agrees.undisturbed]
  constructor
  · intro handled
    by_contra some
    obtain ⟨h,rest,dropped⟩ := List.exists_cons_of_ne_nil some
    have missing : h ∈ lost := dropped ▸ List.mem_cons_self
    obtain ⟨_,response,_,_,answer⟩ := accounted.known h (List.mem_append_right _ missing)
    obtain ⟨_,completion,_,_,only⟩ := handled h.request response answer
    have delivered : ⟨h.request,completion⟩ ∈ i.delivered :=
      (List.mem_filter.mp (only ▸ List.mem_cons_self)).1
    have once := accounted.once
    rw [List.map_append,List.nodup_append] at once
    exact once.2.2 h.request (List.mem_map.mpr ⟨_,delivered,rfl⟩) h.request (List.mem_map_of_mem missing) rfl
  · rintro rfl request response answer
    rw [List.append_nil] at accounted
    obtain ⟨asked,completion,found,_,captured,delivered⟩ := accounted.issued request response answer
    exact ⟨asked,completion,found,captured,filterOnce accounted.once delivered⟩

def dismissal : List ScreenEvent :=
  [.hud .operation,.hud (.wait Constants.hudDismissTime),.hud (.delayOver 0)]

def sampleDetails : PostDetails := ⟨sampleUser 1,[sampleComment 2 3]⟩

def calmEvents : List ScreenEvent := List.flatten
  [[.hud .operation,.response 0 (.posts (.success [samplePost 2,samplePost 4]))],dismissal,
    [.hud (.fadeOutEnded 0),.didSelectRow 1,.hud .operation,.response 1 (.details (.success sampleDetails))],
    dismissal,[.hud (.fadeOutEnded 0)]]

theorem calmHandled : ∃ i, postsViewController.exec () calmEvents = some (.ok i) ∧
    i.state.view = ⟨[samplePost 2,samplePost 4],[.make (samplePost 4) sampleDetails],[]⟩ ∧
    HandledOnce calmEvents i := by
  have ran : postsViewController.exec () calmEvents = some (.ok _) := rfl
  obtain ⟨view,handled⟩ := responsesHandled ran ⟨rfl,rfl,rfl⟩
  exact ⟨_,ran,view,handled.mpr (by decide)⟩

/- The second post is selected while the dismissal for the first one fades out. -/
def hastyEvents : List ScreenEvent := List.flatten
  [[.hud .operation,.response 0 (.posts (.success [samplePost 2,samplePost 4]))],dismissal,
    [.hud (.fadeOutEnded 0),.didSelectRow 0,.hud .operation,.response 1 (.details (.success sampleDetails))],
    dismissal,
    [.didSelectRow 1,.hud .operation,.hud (.fadeOutEnded 0),
      .response 2 (.details (.failure (.data .unableToReadPostDetailsData)))],
    dismissal,[.hud (.fadeOutEnded 0)]]

theorem detailsLost : ∃ i, postsViewController.exec () hastyEvents = some (.ok i) ∧ i.state.hud.Settled ∧
    .response 1 (.details (.success sampleDetails)) ∈ hastyEvents ∧
    i.delivered.filter (fun h => h.request = 1) = [] ∧ i.state.view.pushed = [] ∧
    ¬ HandledOnce hastyEvents i := by
  refine ⟨_,rfl,⟨rfl,rfl,rfl⟩,by decide,rfl,rfl,?_⟩
  intro handled
  obtain ⟨_,_,_,_,only⟩ := handled 1 (.details (.success sampleDetails)) (by decide)
  cases only

end BabylonHealthDemo
