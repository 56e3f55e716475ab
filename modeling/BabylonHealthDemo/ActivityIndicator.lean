import BabylonHealthDemo.CacheCodec

/-! The network activity indicator under any number of requests. A main-queue event
runs at most one completion block, and may call performRequest any number of times:
from that block's completion or on its own. The indicator is a single switch. Each
request that starts turns it on and each that completes turns it off, so it is on
only while a request is outstanding, but goes off with the first of several. -/
namespace BabylonHealthDemo
open JsonTree PathStore Callbacks

structure RequestCall where
  route : String
  queryParams : Option (List (String × String))

def RequestCall.sent (F : Foundation Data) (call : RequestCall) : Bool :=
  ((URLConfig.make call.route call.queryParams).url F).isSome

structure NetworkEvent (Data : Type) where
  finished : Option (Nat × Reply Data)
  calls : List RequestCall

structure NetworkActivity where
  tasks : List DataTask
  isNetworkActivityIndicatorVisible : Bool

abbrev NetworkBlock (Data : Type) := NetworkActivity × List (Effect Action (ResponseType (Payload Data)))

def indicate (visible : Bool) (out : List (Effect Action ρ)) : Bool :=
  (actions out).foldl (fun visible action => match action with
    | .networkActivityIndicator shown => shown
    | .setValue _ _ => visible) visible

def NetworkActivity.request (F : Foundation Data) (s : NetworkActivity) (call : RequestCall) :
    NetworkBlock Data :=
  let (task,out) := performRequest F call.route call.queryParams
  (⟨s.tasks ++ [task],indicate s.isNetworkActivityIndicatorVisible out⟩,out)

def NetworkActivity.requests (F : Foundation Data) (s : NetworkActivity) : List RequestCall → NetworkBlock Data
  | [] => (s,[])
  | call :: rest =>
    let (s,first) := s.request F call
    let (s,more) := s.requests F rest
    (s,first ++ more)

def NetworkActivity.finish (s : NetworkActivity) : Option (Nat × Reply Data) → Option (NetworkBlock Data)
  | none => some (s,[])
  | some (call,reply) => do
    let task ← s.tasks[call]?
    let (task,out) ← task.complete reply
    some (⟨s.tasks.set call task,indicate s.isNetworkActivityIndicatorVisible out⟩,out)

def networkActivity (F : Foundation Data) :
    Machine Unit NetworkActivity (NetworkEvent Data) Action (ResponseType (Payload Data)) Trap where
  start _ := .ok (⟨[],false⟩,[])
  step s e := do
    let (s,first) ← s.finish e.finished
    let (s,more) := s.requests F e.calls
    some (.ok (s,first ++ more))

def NetworkActivity.Outstanding (s : NetworkActivity) : Prop := ∃ task ∈ s.tasks, task.outstanding = true

def NetworkActivity.Tracks (s : NetworkActivity) : Prop :=
  s.isNetworkActivityIndicatorVisible = true ↔ s.Outstanding

def LastOrFollowed (F : Foundation Data) (s : NetworkActivity) (e : NetworkEvent Data) : Prop :=
  ∀ call reply, e.finished = some (call,reply) →
    (∀ other task, s.tasks[other]? = some task → task.outstanding = true → other = call) ∨
    ∃ next ∈ e.calls, next.sent F = true

theorem outstandingAppend {xs ys : List DataTask} :
    (∃ task ∈ xs ++ ys, task.outstanding = true) ↔
      (∃ task ∈ xs, task.outstanding = true) ∨ ∃ task ∈ ys, task.outstanding = true := by
  simp only [List.mem_append,or_and_right,exists_or]

theorem requestSource (F : Foundation Data) (s : NetworkActivity) (call : RequestCall) :
    ∃ task, task.outstanding = call.sent F ∧ (s.request F call).1 =
      ⟨s.tasks ++ [task],call.sent F || s.isNetworkActivityIndicatorVisible⟩ := by
  simp only [NetworkActivity.request,performRequest,RequestCall.sent]
  cases (URLConfig.make call.route call.queryParams).url F with
  | none => exact ⟨_,rfl,rfl⟩
  | some url => exact ⟨_,rfl,rfl⟩

theorem requestsSource (F : Foundation Data) (s : NetworkActivity) (calls : List RequestCall) :
    ∃ tasks, ((∃ task ∈ tasks, task.outstanding = true) ↔ ∃ call ∈ calls, call.sent F = true) ∧
      (s.requests F calls).1.tasks = s.tasks ++ tasks ∧
      ((s.requests F calls).1.isNetworkActivityIndicatorVisible = true ↔
        s.isNetworkActivityIndicatorVisible = true ∨ ∃ call ∈ calls, call.sent F = true) := by
  induction calls generalizing s with
  | nil => exact ⟨[],by simp,by simp [NetworkActivity.requests],by simp [NetworkActivity.requests]⟩
  | cons call rest ih =>
    obtain ⟨task,sent,first⟩ := requestSource F s call
    obtain ⟨tasks,outstanding,grown,shown⟩ := ih (s.request F call).1
    rw [first] at grown shown
    refine ⟨task :: tasks,?_,?_,?_⟩
    · simp only [List.exists_mem_cons_iff,sent,outstanding]
    · simp only [NetworkActivity.requests,first,grown,List.append_assoc,List.singleton_append]
    · simp only [NetworkActivity.requests,first,shown,Bool.or_eq_true,List.exists_mem_cons_iff]
      exact or_assoc.trans or_left_comm

theorem finishSource {s next : NetworkActivity} {call : Nat} {reply : Reply Data}
    {out : List (Effect Action (ResponseType (Payload Data)))}
    (ok : s.finish (some (call,reply)) = some (next,out)) :
    (∃ task, s.tasks[call]? = some task ∧ task.outstanding = true) ∧
      next = ⟨s.tasks.set call .completed,false⟩ := by
  simp only [NetworkActivity.finish,bind,Option.bind_eq_some_iff] at ok
  obtain ⟨task,found,⟨after,effects⟩,completed,last⟩ := ok
  obtain ⟨outstanding,rfl,rfl⟩ := taskCompleteSource completed
  cases Option.some.inj last
  exact ⟨⟨task,found,outstanding⟩,rfl⟩

theorem outstandingSet {tasks : List DataTask} {call : Nat} :
    (∃ task ∈ tasks.set call .completed, task.outstanding = true) ↔
      ∃ other task, tasks[other]? = some task ∧ task.outstanding = true ∧ other ≠ call := by
  constructor
  · rintro ⟨task,member,outstanding⟩
    obtain ⟨other,found⟩ := List.mem_iff_getElem?.mp member
    by_cases same : call = other
    · subst same
      rw [List.getElem?_set_self'] at found
      obtain ⟨_,_,rfl⟩ := Option.map_eq_some_iff.mp found
      cases outstanding
    · rw [List.getElem?_set_ne same] at found
      exact ⟨other,task,found,outstanding,fun back => same back.symm⟩
  · rintro ⟨other,task,found,outstanding,different⟩
    have kept : (tasks.set call .completed)[other]? = some task := by
      rw [List.getElem?_set_ne (fun same => different same.symm)]
      exact found
    exact ⟨task,List.mem_iff_getElem?.mpr ⟨other,kept⟩,outstanding⟩

theorem networkStep {F : Foundation Data} {s next : NetworkActivity} {e : NetworkEvent Data}
    {out : List (Effect Action (ResponseType (Payload Data)))}
    (ok : (networkActivity F).step s e = some (.ok (next,out))) :
    ∃ middle : NetworkActivity, next = (middle.requests F e.calls).1 ∧
      ((e.finished = none ∧ middle = s) ∨
        ∃ call reply, e.finished = some (call,reply) ∧ middle = ⟨s.tasks.set call .completed,false⟩) := by
  simp only [networkActivity,bind,Option.bind_eq_some_iff] at ok
  obtain ⟨⟨middle,first⟩,finished,last⟩ := ok
  cases Option.some.inj last
  refine ⟨middle,rfl,?_⟩
  cases ended : e.finished with
  | none =>
    rw [ended] at finished
    cases Option.some.inj finished
    exact Or.inl ⟨rfl,rfl⟩
  | some reply =>
    rw [ended] at finished
    exact Or.inr ⟨reply.1,reply.2,rfl,(finishSource finished).2⟩

theorem networkStepTracks {F : Foundation Data} {s next : NetworkActivity} {e : NetworkEvent Data}
    {out : List (Effect Action (ResponseType (Payload Data)))} (tracks : s.Tracks)
    (ok : (networkActivity F).step s e = some (.ok (next,out))) : next.Tracks ↔ LastOrFollowed F s e := by
  obtain ⟨middle,rfl,source⟩ := networkStep ok
  obtain ⟨tasks,outstanding,grown,shown⟩ := requestsSource F middle e.calls
  rw [NetworkActivity.Tracks,NetworkActivity.Outstanding,grown,shown,outstandingAppend,outstanding]
  rcases source with ⟨idle,rfl⟩ | ⟨call,reply,ended,rfl⟩
  · have harmless : LastOrFollowed F middle e := by
      intro call reply ended
      rw [idle] at ended
      cases ended
    exact ⟨fun _ => harmless,fun _ => or_congr_left tracks⟩
  · rw [outstandingSet]
    constructor
    · intro right other answer same
      cases Option.some.inj (ended.symm.trans same)
      by_cases followed : ∃ next ∈ e.calls, next.sent F = true
      · exact Or.inr followed
      · left
        intro other task found pending
        by_contra different
        rcases right.mpr (Or.inl ⟨other,task,found,pending,different⟩) with off | on
        · cases off
        · exact followed on
    · intro harmless
      constructor
      · rintro (off | on)
        · cases off
        · exact Or.inr on
      · rintro (⟨other,task,found,pending,different⟩ | on)
        · rcases harmless call reply ended with last | on
          · exact absurd (last other task found pending) different
          · exact Or.inr on
        · exact Or.inr on

theorem shownOutstanding {F : Foundation Data} {events : List (NetworkEvent Data)}
    {i : Instance Unit NetworkActivity (ResponseType (Payload Data))}
    (ran : (networkActivity F).exec () events = some (.ok i)) :
    i.state.isNetworkActivityIndicatorVisible = true → i.state.Outstanding := by
  refine (Machine.execInvariant (fun _ i => i.state.isNetworkActivityIndicatorVisible = true →
    i.state.Outstanding) ?_ ?_ ran).1
  · intro i spawned
    obtain ⟨_,_,started,rfl⟩ := Machine.spawnOk spawned
    cases started
    exact fun on => by cases on
  · intro _ i e next held _ advanced
    obtain ⟨_,_,stepped,rfl⟩ := Machine.advanceOk advanced
    obtain ⟨middle,rfl,source⟩ := networkStep stepped
    obtain ⟨tasks,outstanding,grown,shown⟩ := requestsSource F middle e.calls
    rw [shown,NetworkActivity.Outstanding,grown,outstandingAppend,outstanding]
    refine Or.imp_left fun on => ?_
    rcases source with ⟨_,rfl⟩ | ⟨_,_,_,rfl⟩
    · exact held on
    · cases on

theorem indicatorTracks {F : Foundation Data} {events : List (NetworkEvent Data)}
    {i : Instance Unit NetworkActivity (ResponseType (Payload Data))}
    (ran : (networkActivity F).exec () events = some (.ok i)) :
    (networkActivity F).Throughout () NetworkActivity.Tracks events ↔
      (networkActivity F).Blockwise () (LastOrFollowed F) events := by
  refine Machine.throughoutExactly ?_ (fun _ _ _ _ tracks ok => networkStepTracks tracks ok) ran
  intro i spawned
  obtain ⟨_,_,started,rfl⟩ := Machine.spawnOk spawned
  cases started
  simp [NetworkActivity.Tracks,NetworkActivity.Outstanding]

def detailsCalls (userId postId : Int64) : List RequestCall :=
  [⟨Constants.usersRoute,some (userParams userId)⟩,⟨Constants.commentsRoute,some (commentsParams postId)⟩]

theorem loadDetailsCalls (F : Foundation Data) (userId postId : Int64) (s : NetworkActivity) :
    ∃ load out, loadPostDetails F userId postId = .ok (load,out) ∧
      (s.requests F (detailsCalls userId postId)).1 = ⟨s.tasks ++ [load.userTask,load.commentsTask],
        indicate s.isNetworkActivityIndicatorVisible out⟩ := by
  simp only [detailsCalls,NetworkActivity.requests,NetworkActivity.request,loadPostDetails,getPostUser,
    getPostComments,request,performRequest]
  cases (URLConfig.make Constants.usersRoute (some (userParams userId))).url F <;>
    cases (URLConfig.make Constants.commentsRoute (some (commentsParams postId))).url F <;>
    refine ⟨_,_,by simp only [transform,userForwards,bind,Except.bind,handle,PostDetailsVars.userCompletion,
      PostDetailsVars.commentsCompletion,PostDetailsVars.leave]; rfl,?_⟩ <;>
    simp [indicate]

def postsCall : RequestCall := ⟨Constants.postsRoute,none⟩

def sequentialEvents : List (NetworkEvent Json) :=
  [] ++ [⟨none,[postsCall]⟩] ++ [⟨some (0,⟨none,none⟩),[postsCall]⟩] ++ [⟨some (1,⟨none,none⟩),[]⟩]

theorem sequentialTracks :
    (networkActivity plainFoundation).Throughout () NetworkActivity.Tracks sequentialEvents := by
  refine (indicatorTracks rfl).mpr ((Machine.blockwiseSnoc rfl).mpr ⟨(Machine.blockwiseSnoc rfl).mpr
    ⟨(Machine.blockwiseSnoc rfl).mpr ⟨Machine.blockwiseNil,?_⟩,?_⟩,?_⟩)
  · intro call reply same
    cases same
  · exact fun _ _ _ => Or.inr ⟨postsCall,List.mem_cons_self,rfl⟩
  · intro call reply same
    cases same
    left
    rintro (_ | _ | other) task found outstanding
    · cases found
      cases outstanding
    · rfl
    · cases found

def overlappingEvents : List (NetworkEvent Json) :=
  [⟨none,detailsCalls 1 2⟩,⟨some (0,⟨some (encodeArray User.encode [sampleUser 1]),none⟩),[]⟩]

theorem indicatorHiddenEarly :
    ∃ i, (networkActivity plainFoundation).exec () overlappingEvents = some (.ok i) ∧
      i.state.isNetworkActivityIndicatorVisible = false ∧ i.state.Outstanding ∧ ¬ i.state.Tracks := by
  refine ⟨_,rfl,rfl,⟨_,List.mem_cons_of_mem _ List.mem_cons_self,rfl⟩,?_⟩
  intro tracks
  cases tracks.mpr ⟨_,List.mem_cons_of_mem _ List.mem_cons_self,rfl⟩

end BabylonHealthDemo
