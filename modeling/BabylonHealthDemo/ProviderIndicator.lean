import BabylonHealthDemo.ActivityIndicator
import BabylonHealthDemo.Deliveries

/-! The activity indicator of the data provider. A run of the provider is a run of the
network service: a call sends its requests as it starts, each reply completes one of
them, and no block of the provider sends another. So the indicator is on only for a
call that has delivered nothing yet, and it is right throughout a run exactly when
no reply came while another request was outstanding. -/
namespace BabylonHealthDemo
open JsonTree PathStore Callbacks

def CallState.tasks : CallState → List DataTask
  | .posts s => [s.task]
  | .details s => [s.load.userTask,s.load.commentsTask]

def CallArgs.requests : CallArgs → List RequestCall
  | .retrieveAllPosts => [postsCall]
  | .retrievePostDetails userId postId => detailsCalls userId postId

def CallEvent.reply : CallEvent Data → Option (Nat × Reply Data)
  | .posts (.reply reply) => some (0,reply)
  | .details (.load (.userReply reply)) => some (0,reply)
  | .details (.load (.commentsReply reply)) => some (1,reply)
  | _ => none

def networkEvent (w : Provider) : ProviderEvent Data → NetworkEvent Data
  | .spawn args => ⟨none,args.requests⟩
  | .step call e => ⟨e.reply.map (fun r => (w.offset CallState.tasks call + r.1,r.2)),[]⟩

def networkEvents (F : Foundation Data) (events : List (ProviderEvent Data)) : List (NetworkEvent Data) :=
  Pool.observe (dataProvider F) networkEvent events

def lit (visible : Bool) : Action → Bool
  | .networkActivityIndicator shown => shown
  | .setValue _ _ => visible

def activity (w : Provider) : NetworkActivity := ⟨w.parts CallState.tasks,w.log.foldl lit false⟩

theorem indicateLit (visible : Bool) (out : List (Effect Action ρ)) :
    indicate visible out = (actions out).foldl lit visible := rfl

theorem postsWriteDark (F : Foundation Data) (posts : List Post) (visible : Bool) :
    (actions (writePosts F posts)).foldl lit visible = visible := by
  unfold writePosts
  split <;> rfl

theorem detailsWriteDark (F : Foundation Data) (user : User) (comments : List Comment) (visible : Bool) :
    (actions (writePostDetails F user comments)).foldl lit visible = visible := by
  unfold writePostDetails
  split
  · rfl
  · split <;> rfl

theorem readDark {F : Foundation Data} {decode : Json → Option α} {r next : Read} {e : ReadEvent}
    {out : List (Effect Action (ResponseType α))} (ok : r.answer F decode e = some (.ok (next,out))) :
    actions out = [] := by
  simp only [Read.answer,bind,Option.bind_eq_some_iff] at ok
  obtain ⟨⟨read,inner⟩,stepped,last⟩ := ok
  obtain ⟨_,transformed,same⟩ := okBind (Option.some.inj last)
  cases same
  rw [transformActions transformed]
  cases e <;> simp only [Read.step] at stepped <;> split at stepped <;> try contradiction
  · cases Option.some.inj stepped
    split <;> rfl
  · split at stepped <;> cases Option.some.inj stepped <;> rfl

theorem postsCompletionDark (F : Foundation Data) (s : RetrieveAllPosts) (response : ResponseType (List Post))
    (next : RetrieveAllPosts) (out : List (Effect Action (ResponseType (List Post))))
    (ran : RetrieveAllPosts.networkCompletion F s response = .ok (next,out)) (visible : Bool) :
    (actions out).foldl lit visible = visible := by
  cases response with
  | failure e =>
    cases ran
    rfl
  | success posts =>
    cases ran
    rw [actionsComplete,actionsIgnore]
    exact postsWriteDark F posts visible

theorem detailsCompletionDark (F : Foundation Data) (s : RetrievePostDetails)
    (response : ResponseType PostDetails) (next : RetrievePostDetails)
    (out : List (Effect Action (ResponseType PostDetails)))
    (ran : RetrievePostDetails.networkCompletion F s response = .ok (next,out)) (visible : Bool) :
    (actions out).foldl lit visible = visible := by
  cases response with
  | failure e =>
    cases ran
    rfl
  | success d =>
    cases ran
    rw [actionsComplete,actionsIgnore]
    exact detailsWriteDark F d.user d.comments visible

theorem postsCompletionTask (F : Foundation Data) (s : RetrieveAllPosts) (response : ResponseType (List Post))
    (next : RetrieveAllPosts) (out : List (Effect Action (ResponseType (List Post))))
    (ran : RetrieveAllPosts.networkCompletion F s response = .ok (next,out)) : next.task = s.task := by
  cases response <;> cases ran <;> rfl

theorem detailsCompletionLoad (F : Foundation Data) (s : RetrievePostDetails)
    (response : ResponseType PostDetails) (next : RetrievePostDetails)
    (out : List (Effect Action (ResponseType PostDetails)))
    (ran : RetrievePostDetails.networkCompletion F s response = .ok (next,out)) : next.load = s.load := by
  cases response <;> cases ran <;> rfl

theorem joinDark {closure : PostDetailsVars → ρ →
      Except Trap (Out Action PostDetailsVars (ResponseType PostDetails))}
    (silent : ∀ v r next out, closure v r = .ok (next,out) → out = [])
    {v last : PostDetailsVars} {es : List (Effect Action ρ)}
    {out : List (Effect Action (ResponseType PostDetails))} (ran : handle closure v es = .ok (last,out))
    (visible : Bool) : (actions out).foldl lit visible = (actions es).foldl lit visible :=
  handleFolds lit (fun _ _ _ _ ran visible => by rw [silent _ _ _ _ ran]; rfl) ran visible

def TasksMove (reply : Option (Nat × Reply Data)) (before after : List DataTask) (log : List Action) : Prop :=
  match reply with
  | none => after = before ∧ ∀ visible, log.foldl lit visible = visible
  | some (k,_) => (∃ task, before[k]? = some task ∧ task.outstanding = true) ∧
      after = before.set k .completed ∧ ∀ visible, log.foldl lit visible = false

theorem answerTask {task : DataTask} {reply : Reply Data} {next : DataTask}
    {completion : ResponseType (Payload Data) → Except Trap (ResponseType α)}
    {out : List (Effect Action (ResponseType α))} (ok : task.answer completion reply = some (.ok (next,out))) :
    task.outstanding = true ∧ next = .completed ∧ actions out = [.networkActivityIndicator false] := by
  obtain ⟨outstanding,same⟩ := taskReplySource ok
  cases answered : completion (taskResponse reply) with
  | error t =>
    rw [answered] at same
    cases same
  | ok response =>
    rw [answered] at same
    cases same
    exact ⟨outstanding,rfl,rfl⟩

theorem loadTasks {F : Foundation Data} {s next : LoadPostDetails} {e : LoadEvent Data}
    {out : List (Effect Action (ResponseType PostDetails))} (ok : s.step F e = some (.ok (next,out))) :
    TasksMove (CallEvent.details (.load e)).reply [s.userTask,s.commentsTask]
      [next.userTask,next.commentsTask] (actions out) := by
  cases loadRan ok with
  | userReply answered handled =>
    obtain ⟨outstanding,rfl,dark⟩ := answerTask answered
    refine ⟨⟨s.userTask,rfl,outstanding⟩,rfl,fun visible => ?_⟩
    rw [joinDark userSilent handled,dark]
    rfl
  | commentsReply answered handled =>
    obtain ⟨outstanding,rfl,dark⟩ := answerTask answered
    refine ⟨⟨s.commentsTask,rfl,outstanding⟩,rfl,fun visible => ?_⟩
    rw [joinDark commentsSilent handled,dark]
    rfl
  | notify _ notified =>
    obtain ⟨_,rfl,_⟩ := notifyRan notified
    exact ⟨rfl,fun _ => rfl⟩

theorem readDetailsDark {F : Foundation Data} {s next : ReadPostDetails} {e : ReadDetailsEvent}
    {out : List (Effect Action (ResponseType PostDetails))} (ok : s.step F e = some (.ok (next,out)))
    (visible : Bool) : (actions out).foldl lit visible = visible := by
  cases readDetailsRan ok with
  | user answered handled =>
    rw [joinDark userSilent handled,readDark answered]
    rfl
  | comments answered handled =>
    rw [joinDark commentsSilent handled,readDark answered]
    rfl
  | notify _ notified =>
    obtain ⟨_,rfl,_⟩ := notifyRan notified
    rfl

theorem postsTasks {F : Foundation Data} {s next : RetrieveAllPosts} {e : PostsEvent Data}
    {out : List (Effect Action (ResponseType (List Post)))} (ok : s.step F e = some (.ok (next,out))) :
    TasksMove (CallEvent.posts e).reply [s.task] [next.task] (actions out) := by
  cases postsRan ok with
  | reply answered handled =>
    obtain ⟨outstanding,rfl,dark⟩ := answerTask answered
    have kept : next.task = .completed := handleKeeps (fun s => s.task = .completed)
      (fun s r after out held ran => (postsCompletionTask F s r after out ran).trans held) rfl handled
    refine ⟨⟨s.task,rfl,outstanding⟩,by rw [kept]; rfl,fun visible => ?_⟩
    rw [handleFolds lit (postsCompletionDark F) handled,dark]
    rfl
  | read _ answered transformed =>
    refine ⟨rfl,fun visible => ?_⟩
    rw [transformActions transformed,readDark answered]
    rfl

theorem detailsTasks {F : Foundation Data} {s next : RetrievePostDetails} {e : DetailsEvent Data}
    {out : List (Effect Action (ResponseType PostDetails))} (ok : s.step F e = some (.ok (next,out))) :
    TasksMove (CallEvent.details e).reply [s.load.userTask,s.load.commentsTask]
      [next.load.userTask,next.load.commentsTask] (actions out) := by
  cases detailsRan ok with
  | @load e load inner _ _ stepped handled =>
    have kept : next.load = load := handleKeeps (fun s => s.load = load)
      (fun s r after out held ran => (detailsCompletionLoad F s r after out ran).trans held) rfl handled
    have moved := loadTasks stepped
    rw [← kept] at moved
    have dark := handleFolds lit (detailsCompletionDark F) handled
    cases e with
    | notify => exact ⟨moved.1,fun visible => (dark visible).trans (moved.2 visible)⟩
    | _ => exact ⟨moved.1,moved.2.1,fun visible => (dark visible).trans (moved.2.2 visible)⟩
  | read _ stepped transformed =>
    refine ⟨rfl,fun visible => ?_⟩
    rw [transformActions transformed]
    exact readDetailsDark stepped visible

theorem callTasks {F : Foundation Data} {s next : CallState} {e : CallEvent Data}
    {out : List (Effect Action CallResponse)} (ok : (dataProvider F).step s e = some (.ok (next,out))) :
    TasksMove e.reply s.tasks next.tasks (actions out) := by
  cases callRan ok with
  | posts stepped =>
    rw [actionsRelabel]
    exact postsTasks stepped
  | details stepped =>
    rw [actionsRelabel]
    exact detailsTasks stepped

theorem loadPostsCalls (F : Foundation Data) (n : NetworkActivity) :
    ∃ task out, loadPosts F = .ok (task,out) ∧ (n.requests F [postsCall]).1 =
      ⟨n.tasks ++ [task],(actions out).foldl lit n.isNetworkActivityIndicatorVisible⟩ := by
  simp only [postsCall,NetworkActivity.requests,NetworkActivity.request,loadPosts,request,performRequest]
  cases (URLConfig.make Constants.postsRoute none).url F with
  | none => exact ⟨_,_,rfl,rfl⟩
  | some url => exact ⟨_,_,rfl,rfl⟩

theorem callRequests {F : Foundation Data} {args : CallArgs} {s : CallState}
    {out : List (Effect Action CallResponse)} (ok : (dataProvider F).start args = .ok (s,out))
    (n : NetworkActivity) : (n.requests F args.requests).1 =
      ⟨n.tasks ++ s.tasks,(actions out).foldl lit n.isNetworkActivityIndicatorVisible⟩ := by
  cases args with
  | retrieveAllPosts =>
    obtain ⟨task,effects,loaded,requested⟩ := loadPostsCalls F n
    simp only [dataProvider,retrieveAllPosts,loaded] at ok
    cases handled : handle (RetrieveAllPosts.networkCompletion F) ⟨task,none⟩ effects with
    | error t => simp [tag,bind,Except.bind,Except.map,handled] at ok
    | ok after =>
      simp only [bind,Except.bind,handled,tag,Except.map,Except.ok.injEq,Prod.mk.injEq] at ok
      obtain ⟨rfl,rfl⟩ := ok
      have kept : after.1.task = task := handleKeeps (fun s => s.task = task)
        (fun s r next out held ran => (postsCompletionTask F s r next out ran).trans held) rfl handled
      rw [CallArgs.requests,requested,CallState.tasks,kept,actionsRelabel,
        handleFolds lit (postsCompletionDark F) handled]
  | retrievePostDetails userId postId =>
    obtain ⟨load,effects,loaded,requested⟩ := loadDetailsCalls F userId postId n
    simp only [dataProvider,retrievePostDetails,loaded] at ok
    cases handled : handle (RetrievePostDetails.networkCompletion F) ⟨userId,postId,load,none⟩ effects with
    | error t => simp [tag,bind,Except.bind,Except.map,handled] at ok
    | ok after =>
      simp only [bind,Except.bind,handled,tag,Except.map,Except.ok.injEq,Prod.mk.injEq] at ok
      obtain ⟨rfl,rfl⟩ := ok
      have kept : after.1.load = load := handleKeeps (fun s => s.load = load)
        (fun s r next out held ran => (detailsCompletionLoad F s r next out ran).trans held) rfl handled
      rw [CallArgs.requests,requested,CallState.tasks,kept,actionsRelabel,
        handleFolds lit (detailsCompletionDark F) handled,indicateLit]

theorem activityStep {F : Foundation Data} {w next : Provider} {e : ProviderEvent Data}
    (stepped : w.step (dataProvider F) e = some next) (alive : next.trap = none) :
    ∃ out, (networkActivity F).step (activity w) (networkEvent w e) = some (.ok (activity next,out)) := by
  cases (poolStepCases stepped).2 with
  | spawnTrap _ => cases alive
  | stepTrap _ _ => cases alive
  | @spawned args s out started =>
    have sent := callRequests started (activity w)
    have same : activity ⟨w.instances ++ [⟨args,s,completions out⟩],w.log ++ actions out,none⟩ =
        ((activity w).requests F args.requests).1 := by
      rw [sent]
      simp only [activity,Pool.parts,List.flatMap_append,List.flatMap_singleton,List.foldl_append]
    rw [same]
    exact ⟨_,rfl⟩
  | @stepped call i e s out found ran =>
    have moved := callTasks ran
    cases replied : e.reply with
    | none =>
      rw [replied] at moved
      have same : activity ⟨w.instances.set call ⟨i.args,s,i.delivered ++ completions out⟩,
          w.log ++ actions out,none⟩ = activity w := by
        simp only [activity,partsKept CallState.tasks found moved.1,List.foldl_append,moved.2]
      rw [same]
      refine ⟨[],?_⟩
      simp only [networkEvent,replied]
      rfl
    | some reply =>
      rw [replied] at moved
      obtain ⟨⟨task,mine,outstanding⟩,replaced,dark⟩ := moved
      have inside := (List.getElem?_eq_some_iff.mp mine).1
      have same : activity ⟨w.instances.set call ⟨i.args,s,i.delivered ++ completions out⟩,
          w.log ++ actions out,none⟩ =
          ⟨(activity w).tasks.set (w.offset CallState.tasks call + reply.1) .completed,false⟩ := by
        simp only [activity,partsReplaced CallState.tasks found inside replaced,List.foldl_append,dark]
      have there := partsFound CallState.tasks found mine
      rw [same]
      cases task with
      | resumed request =>
        refine ⟨[.act (.networkActivityIndicator false),.complete (taskResponse reply.2)],?_⟩
        simp only [networkEvent,replied,Option.map_some,networkActivity,NetworkActivity.finish,activity,there,
          DataTask.complete,bind,Option.bind_some,NetworkActivity.requests]
        rfl
      | _ => cases outstanding

theorem networkEventsSnoc {F : Foundation Data} {events : List (ProviderEvent Data)} {w : Provider}
    (ran : Pool.run (dataProvider F) events = some w) (e : ProviderEvent Data) :
    networkEvents F (events ++ [e]) = networkEvents F events ++ [networkEvent w e] := observeSnoc ran e

theorem activityRun {F : Foundation Data} {events : List (ProviderEvent Data)} {w : Provider}
    (ran : Pool.run (dataProvider F) events = some w) (alive : w.trap = none) :
    ∃ i, (networkActivity F).exec () (networkEvents F events) = some (.ok i) ∧ i.state = activity w := by
  induction events using List.reverseRecOn generalizing w with
  | nil =>
    cases Option.some.inj ran
    exact ⟨_,rfl,rfl⟩
  | append_singleton events e ih =>
    obtain ⟨before,ranBefore,stepped⟩ := runSnocSource ran
    obtain ⟨i,executed,same⟩ := ih ranBefore (poolStepCases stepped).1
    obtain ⟨out,moved⟩ := activityStep stepped alive
    refine ⟨⟨(),activity w,i.delivered ++ completions out⟩,?_,rfl⟩
    rw [networkEventsSnoc ranBefore,Machine.execSnoc,executed]
    simp only [Machine.advance,same,moved,Option.map_some,Except.map]

theorem outstandingUndelivered {F : Foundation Data} {args : CallArgs} {a : CallAnswers} {s : CallState}
    {delivered : List CallResponse} (agrees : CallAgrees F args a s delivered) {task : DataTask}
    (member : task ∈ s.tasks) (outstanding : task.outstanding = true) : delivered = [] := by
  cases agrees with
  | posts agrees =>
    rw [List.mem_singleton.mp member] at outstanding
    cases agrees with
    | loading _ _ _ _ => rfl
    | loaded idle _ _ _ => rw [idle] at outstanding; cases outstanding
    | reading _ idle _ _ _ _ _ => rw [idle] at outstanding; cases outstanding
  | @details a s responses agrees =>
    have waiting : ¬ LoadAgrees a.user a.comments true s.load := by
      intro load
      obtain ⟨users,lists⟩ := joinRan load.join
      rcases List.mem_pair.mp member with rfl | rfl
      · rw [load.userTask,Option.isNone_iff_eq_none] at outstanding
        rw [outstanding] at users
        cases users
      · rw [load.commentsTask,Option.isNone_iff_eq_none] at outstanding
        rw [outstanding] at lists
        cases lists
    cases agrees with
    | loading _ _ _ => rfl
    | loaded load _ _ _ => exact absurd load waiting
    | reading load _ _ _ _ => exact absurd load waiting

def RepliesLast (w : Provider) (e : ProviderEvent Data) : Prop :=
  ∀ call block k reply, e = .step call block → block.reply = some (k,reply) →
    ∀ other i n task, w.instances[other]? = some i → i.state.tasks[n]? = some task →
      task.outstanding = true → other = call ∧ n = k

theorem repliesLastFollowed {F : Foundation Data} {w next : Provider} {e : ProviderEvent Data}
    (stepped : w.step (dataProvider F) e = some next) (alive : next.trap = none) :
    LastOrFollowed F (activity w) (networkEvent w e) ↔ RepliesLast w e := by
  cases (poolStepCases stepped).2 with
  | spawnTrap _ => cases alive
  | stepTrap _ _ => cases alive
  | spawned _ =>
    constructor
    · intro _ _ _ _ _ same
      cases same
    · intro _ _ _ same
      cases same
  | @stepped call i e s out found ran =>
    have moved := callTasks ran
    constructor
    · rintro last _ _ k reply same replied other j n task there mine outstanding
      cases same
      rw [replied] at moved
      obtain ⟨⟨_,task,_⟩,_⟩ := moved
      have inside := (List.getElem?_eq_some_iff.mp task).1
      have insideOther := (List.getElem?_eq_some_iff.mp mine).1
      rcases last _ _ (by simp only [networkEvent,replied]; rfl) with only | ⟨_,none,_⟩
      · exact partsPlace CallState.tasks there found insideOther inside
          (only _ _ (partsFound CallState.tasks there mine) outstanding)
      · cases none
    · intro last place reply same
      simp only [networkEvent,Option.map_eq_some_iff,Prod.mk.injEq] at same
      obtain ⟨⟨k,reply⟩,replied,rfl,rfl⟩ := same
      left
      intro other task there outstanding
      obtain ⟨owner,j,n,foundOwner,mine,rfl⟩ := partsSource CallState.tasks there
      obtain ⟨rfl,rfl⟩ := last call e k reply rfl replied owner j n task foundOwner mine outstanding
      rfl

theorem alivePrefix {F : Foundation Data} {xs events : List (ProviderEvent Data)} {v w : Provider}
    (inside : xs <+: events) (ran : Pool.run (dataProvider F) events = some w) (alive : w.trap = none)
    (earlier : Pool.run (dataProvider F) xs = some v) : v.trap = none := by
  obtain ⟨ys,rfl⟩ := inside
  rw [poolContinues earlier] at ran
  cases ys with
  | nil =>
    cases Option.some.inj ran
    exact alive
  | cons y ys =>
    obtain ⟨_,stepped,_⟩ := Option.bind_eq_some_iff.mp ran
    exact (poolStepCases stepped).1

theorem providerIndicator (F : Foundation Data) {events : List (ProviderEvent Data)} {w : Provider}
    (ran : Pool.run (dataProvider F) events = some w) (alive : w.trap = none) :
    (∃ i, (networkActivity F).exec () (networkEvents F events) = some (.ok i) ∧ i.state = activity w) ∧
    ((activity w).isNetworkActivityIndicatorVisible = true →
      ∃ i ∈ w.instances, i.delivered = [] ∧ ∃ task ∈ i.state.tasks, task.outstanding = true) ∧
    ((∀ before v, before <+: events → Pool.run (dataProvider F) before = some v → (activity v).Tracks) ↔
      ∀ before e v, before ++ [e] <+: events → Pool.run (dataProvider F) before = some v → RepliesLast v e) := by
  refine ⟨activityRun ran alive,?_,?_⟩
  · intro on
    obtain ⟨i,executed,same⟩ := activityRun ran alive
    obtain ⟨task,member,outstanding⟩ := same ▸ shownOutstanding executed (by rw [same]; exact on)
    obtain ⟨i,inside,mine⟩ := List.mem_flatMap.mp member
    obtain ⟨a,agrees⟩ := instanceAgrees ran inside
    exact ⟨i,inside,outstandingUndelivered agrees mine outstanding,task,mine,outstanding⟩
  · simp only [poolSteps] at ran ⊢
    refine Steps.throughoutExactly (fun v => (activity v).Tracks) RepliesLast ?_ ?_ ran
    · simp [activity,Pool.parts,Pool.empty,NetworkActivity.Tracks,NetworkActivity.Outstanding]
    · intro xs before e next inside found tracks stepped
      have after : Pool.run (dataProvider F) (xs ++ [e]) = some next := by
        rw [poolSteps,Steps.runSnoc,found]
        exact stepped
      have aliveNext := alivePrefix inside (by rw [poolSteps]; exact ran) alive after
      obtain ⟨out,moved⟩ := activityStep stepped aliveNext
      rw [networkStepTracks tracks moved,repliesLastFollowed stepped aliveNext]

theorem answeredIndicator : ∃ before v, before <+: answeredRun true ∧
    Pool.run (dataProvider plainFoundation) before = some v ∧ ¬ (activity v).Tracks := by
  have ran : Pool.run (dataProvider plainFoundation) (answeredRun true) = some _ := rfl
  obtain ⟨_,_,exactly⟩ := providerIndicator plainFoundation ran rfl
  by_contra right
  push Not at right
  have last := exactly.mp right ((answeredRun true).take 1) _ _ ⟨(answeredRun true).drop 2,rfl⟩ rfl
  obtain ⟨_,same⟩ := last 0 _ 0 _ rfl rfl 0 _ 1 _ rfl rfl rfl
  cases same

end BabylonHealthDemo
