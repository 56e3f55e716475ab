import BabylonHealthDemo.PostDetailsJoin

/-! BabylonHealthNetworkingAPI: the posts request, and the user and comments
requests joined by loadPostDetails. The first user of a decoded array is taken
with a forced unwrap. LoadStepped lists everything one main-queue block of a
details request can do. -/
namespace BabylonHealthDemo
open JsonTree PathStore Callbacks

/- The closures of loadPosts and getPostComments differ only in the decoded type. -/
def decodeCompletion (F : Foundation Data) (decode : Json → Option α) :
    ResponseType (Payload Data) → ResponseType α
  | .success payload => match jsonDecode F decode payload.data with
    | some value => .success value
    | none => .failure (.apiNetworking .jsonDecodingError)
  | .failure error => .failure error

def loadPostsCompletion (F : Foundation Data) : ResponseType (Payload Data) → ResponseType (List Post) :=
  decodeCompletion F (decodeArray Post.decode)

def getPostCommentsCompletion (F : Foundation Data) :
    ResponseType (Payload Data) → ResponseType (List Comment) :=
  decodeCompletion F (decodeArray Comment.decode)

def getPostUserCompletion (F : Foundation Data) :
    ResponseType (Payload Data) → Except Trap (ResponseType User)
  | .success payload => match jsonDecode F (decodeArray User.decode) payload.data with
    | some users => match users.head? with
      | some user => .ok (.success user)
      | none => .error .firstUserIsNil
    | none => .ok (.failure (.apiNetworking .jsonDecodingError))
  | .failure error => .ok (.failure error)

/- performRequest with a closure around the caller's completion, and the block its
task leaves on the main queue. -/
def request (F : Foundation Data) (route : String) (queryParams : Option (List (String × String)))
    (completion : ResponseType (Payload Data) → Except Trap (ResponseType α)) :
    Except Trap (Out Action DataTask (ResponseType α)) := do
  let (task,out) := performRequest F route queryParams
  let out ← transform completion out
  .ok (task,out)

def DataTask.answer (task : DataTask)
    (completion : ResponseType (Payload Data) → Except Trap (ResponseType α)) (reply : Reply Data) :
    Option (Except Trap (Out Action DataTask (ResponseType α))) := do
  let (task,out) ← task.complete reply
  some (do
    let out ← transform completion out
    .ok (task,out))

def loadPosts (F : Foundation Data) : Except Trap (Out Action DataTask (ResponseType (List Post))) :=
  request F Constants.postsRoute none (fun response => .ok (loadPostsCompletion F response))

def loadPostsReply (F : Foundation Data) (task : DataTask) (reply : Reply Data) :
    Option (Except Trap (Out Action DataTask (ResponseType (List Post)))) :=
  task.answer (fun response => .ok (loadPostsCompletion F response)) reply

def userParams (userId : Int64) : List (String × String) := [(Constants.postsIdKey,toString userId)]

def commentsParams (postId : Int64) : List (String × String) :=
  [(Constants.commentsPostIdKey,toString postId)]

def getPostUser (F : Foundation Data) (userId : Int64) :
    Except Trap (Out Action DataTask (ResponseType User)) :=
  request F Constants.usersRoute (some (userParams userId)) (getPostUserCompletion F)

def getPostComments (F : Foundation Data) (postId : Int64) :
    Except Trap (Out Action DataTask (ResponseType (List Comment))) :=
  request F Constants.commentsRoute (some (commentsParams postId))
    (fun response => .ok (getPostCommentsCompletion F response))

structure LoadPostDetails where
  vars : PostDetailsVars
  userTask : DataTask
  commentsTask : DataTask

inductive LoadEvent (Data : Type) where
  | userReply (reply : Reply Data)
  | commentsReply (reply : Reply Data)
  | notify

def loadPostDetails (F : Foundation Data) (userId postId : Int64) :
    Except Trap (Out Action LoadPostDetails (ResponseType PostDetails)) := do
  let vars := PostDetailsVars.new.enter
  let (userTask,out) ← getPostUser F userId
  let (vars,first) ← handle PostDetailsVars.userCompletion vars out
  let vars := vars.enter
  let (commentsTask,out) ← getPostComments F postId
  let (vars,second) ← handle PostDetailsVars.commentsCompletion vars out
  .ok (⟨vars.notify,userTask,commentsTask⟩,first ++ second)

def LoadPostDetails.step (F : Foundation Data) (s : LoadPostDetails) :
    LoadEvent Data → Option (Except Trap (Out Action LoadPostDetails (ResponseType PostDetails)))
  | .userReply reply => do
    let block ← s.userTask.answer (getPostUserCompletion F) reply
    some (do
      let (task,out) ← block
      let (vars,out) ← handle PostDetailsVars.userCompletion s.vars out
      .ok ({s with vars := vars,userTask := task},out))
  | .commentsReply reply => do
    let block ← s.commentsTask.answer (fun response => .ok (getPostCommentsCompletion F response)) reply
    some (do
      let (task,out) ← block
      let (vars,out) ← handle PostDetailsVars.commentsCompletion s.vars out
      .ok ({s with vars := vars,commentsTask := task},out))
  | .notify => do
    let group ← s.vars.dispatchGroup.run
    some (do
      let out ← s.vars.notifyBlock
      .ok ({s with vars := {s.vars with dispatchGroup := group}},out))

def postsAnswer (F : Foundation Data) (reply : Reply Data) : ResponseType (List Post) :=
  loadPostsCompletion F (taskResponse reply)

def userAnswer (F : Foundation Data) (reply : Reply Data) : Except Trap (ResponseType User) :=
  getPostUserCompletion F (taskResponse reply)

def commentsAnswer (F : Foundation Data) (reply : Reply Data) : ResponseType (List Comment) :=
  getPostCommentsCompletion F (taskResponse reply)

def refused (F : Foundation Data) (route : String) (queryParams : Option (List (String × String))) :
    Option (ResponseType α) :=
  match (URLConfig.make route queryParams).url F with
  | none => some (.failure (.networkingService .urlError))
  | some _ => none

theorem refusedReceived (F : Foundation Data) (route : String)
    (queryParams : Option (List (String × String))) :
    received (refused F route queryParams : Option (ResponseType α)) = none := by
  unfold refused
  split <;> rfl

theorem requestStarts (F : Foundation Data) (route : String)
    (queryParams : Option (List (String × String)))
    (completion : ResponseType (Payload Data) → Except Trap (ResponseType α))
    (forwards : ∀ e, completion (.failure e) = .ok (.failure e)) :
    (refused F route queryParams = (none : Option (ResponseType α)) ∧ ∃ task,
      task.outstanding = true ∧
      request F route queryParams completion = .ok (task,[.act (.networkActivityIndicator true)])) ∨
    (refused F route queryParams =
        some (.failure (.networkingService .urlError) : ResponseType α) ∧ ∃ task,
      task.outstanding = false ∧ request F route queryParams completion =
        .ok (task,[.complete (.failure (.networkingService .urlError))])) := by
  unfold refused request performRequest
  cases built : (URLConfig.make route queryParams).url F with
  | none =>
    right
    refine ⟨rfl,.notCreated,rfl,?_⟩
    simp [transform,forwards,bind,Except.bind]
  | some url =>
    left
    exact ⟨rfl,.resumed (URLRequest.defaultRequest url),rfl,rfl⟩

theorem taskReplySource {task : DataTask} {reply : Reply Data}
    {completion : ResponseType (Payload Data) → Except Trap (ResponseType α)}
    {block : Except Trap (Out Action DataTask (ResponseType α))}
    (ok : task.answer completion reply = some block) :
    task.outstanding = true ∧ block = (completion (taskResponse reply)).map (fun response =>
      (.completed,[.act (.networkActivityIndicator false),.complete response])) := by
  simp only [DataTask.answer,bind,Option.bind_eq_some_iff] at ok
  obtain ⟨⟨next,out⟩,completed,last⟩ := ok
  obtain ⟨outstanding,rfl,rfl⟩ := taskCompleteSource completed
  refine ⟨outstanding,?_⟩
  cases Option.some.inj last
  simp only [transform,bind,Except.bind,Except.map]
  cases completion (taskResponse reply) <;> rfl

theorem taskReplyIdle {task : DataTask} {reply : Reply Data}
    {completion : ResponseType (Payload Data) → Except Trap (ResponseType α)}
    (idle : task.answer completion reply = none) : task.outstanding = false := by
  cases completed : task.complete reply with
  | none => exact taskIdle completed
  | some out => simp [DataTask.answer,completed] at idle

/- What a block of a details request has done that did not trap. -/
inductive LoadRan (F : Foundation Data) (s : LoadPostDetails) :
    LoadEvent Data → LoadPostDetails → List (Effect Action (ResponseType PostDetails)) → Prop where
  | userReply {reply task inner vars out}
      (answered : s.userTask.answer (getPostUserCompletion F) reply = some (.ok (task,inner)))
      (handled : handle PostDetailsVars.userCompletion s.vars inner = .ok (vars,out)) :
      LoadRan F s (.userReply reply) {s with vars := vars,userTask := task} out
  | commentsReply {reply task inner vars out}
      (answered : s.commentsTask.answer (fun response => .ok (getPostCommentsCompletion F response)) reply =
        some (.ok (task,inner)))
      (handled : handle PostDetailsVars.commentsCompletion s.vars inner = .ok (vars,out)) :
      LoadRan F s (.commentsReply reply) {s with vars := vars,commentsTask := task} out
  | notify {group out} (run : s.vars.dispatchGroup.run = some group)
      (notified : s.vars.notifyBlock = .ok out) :
      LoadRan F s .notify {s with vars := {s.vars with dispatchGroup := group}} out

theorem loadRan {F : Foundation Data} {s next : LoadPostDetails} {e : LoadEvent Data}
    {out : List (Effect Action (ResponseType PostDetails))} (ok : s.step F e = some (.ok (next,out))) :
    LoadRan F s e next out := by
  cases e with
  | userReply reply =>
    simp only [LoadPostDetails.step,bind,Option.bind_eq_some_iff] at ok
    obtain ⟨block,answered,last⟩ := ok
    obtain ⟨⟨task,inner⟩,rfl,more⟩ := okBind (Option.some.inj last)
    obtain ⟨_,handled,same⟩ := okBind more
    cases same
    exact .userReply answered handled
  | commentsReply reply =>
    simp only [LoadPostDetails.step,bind,Option.bind_eq_some_iff] at ok
    obtain ⟨block,answered,last⟩ := ok
    obtain ⟨⟨task,inner⟩,rfl,more⟩ := okBind (Option.some.inj last)
    obtain ⟨_,handled,same⟩ := okBind more
    cases same
    exact .commentsReply answered handled
  | notify =>
    simp only [LoadPostDetails.step,bind,Option.bind_eq_some_iff] at ok
    obtain ⟨group,run,last⟩ := ok
    obtain ⟨_,notified,same⟩ := okBind (Option.some.inj last)
    cases same
    exact .notify run notified

theorem userForwards (F : Foundation Data) (e : SwiftError) :
    getPostUserCompletion F (.failure e) = .ok (.failure e) := rfl

theorem userAnswerTrap {F : Foundation Data} {reply : Reply Data} {t : Trap}
    (trap : userAnswer F reply = .error t) : t = .firstUserIsNil := by
  unfold userAnswer getPostUserCompletion at trap
  split at trap <;> try contradiction
  split at trap <;> try contradiction
  split at trap <;> cases trap
  rfl

structure LoadAgrees (user : Option (ResponseType User)) (comments : Option (ResponseType (List Comment)))
    (ran : Bool) (s : LoadPostDetails) : Prop where
  join : JoinAgrees user comments ran s.vars
  userTask : s.userTask.outstanding = user.isNone
  commentsTask : s.commentsTask.outstanding = comments.isNone

theorem loadStarts (F : Foundation Data) (userId postId : Int64) :
    ∃ s out, loadPostDetails F userId postId = .ok (s,out) ∧ completions out = [] ∧
      writesOf (actions out) = [] ∧
      LoadAgrees (refused F Constants.usersRoute (some (userParams userId)))
        (refused F Constants.commentsRoute (some (commentsParams postId))) false s := by
  have users := requestStarts F Constants.usersRoute (some (userParams userId))
    (getPostUserCompletion F) (userForwards F)
  have lists := requestStarts F Constants.commentsRoute (some (commentsParams postId))
    (fun response => .ok (getPostCommentsCompletion F response)) (fun _ => rfl)
  rcases users with ⟨hu,userTask,outU,startU⟩ | ⟨hu,userTask,outU,startU⟩ <;>
    rcases lists with ⟨hc,commentsTask,outC,startC⟩ | ⟨hc,commentsTask,outC,startC⟩ <;>
    refine ⟨_,_,by simp only [loadPostDetails,getPostUser,getPostComments,startU,startC,bind,
      Except.bind,handle,PostDetailsVars.userCompletion,PostDetailsVars.commentsCompletion,
      PostDetailsVars.leave]; rfl,rfl,rfl,?_,?_,?_⟩ <;>
    simp only [hu,hc,outU,outC,Option.isNone]
  all_goals exact joinRegistered rfl rfl (by simp [failed,received,PostDetailsVars.enter]) rfl

inductive LoadStepped (F : Foundation Data) (user : Option (ResponseType User))
    (comments : Option (ResponseType (List Comment))) (ran : Bool) :
    LoadEvent Data → Except Trap (Out Action LoadPostDetails (ResponseType PostDetails)) → Prop where
  | userAnswered {reply response next} (opened : user = none)
      (answer : userAnswer F reply = .ok response)
      (agrees : LoadAgrees (some response) comments false next) :
      LoadStepped F user comments ran (.userReply reply)
        (.ok (next,[.act (.networkActivityIndicator false)]))
  | userTrapped {reply t} (opened : user = none) (answer : userAnswer F reply = .error t) :
      LoadStepped F user comments ran (.userReply reply) (.error t)
  | commentsAnswered {reply next} (opened : comments = none)
      (agrees : LoadAgrees user (some (commentsAnswer F reply)) false next) :
      LoadStepped F user comments ran (.commentsReply reply)
        (.ok (next,[.act (.networkActivityIndicator false)]))
  | joined {response next} (users : user.isSome = true) (lists : comments.isSome = true)
      (first : ran = false) (value : response.value = both (received user) (received comments))
      (agrees : LoadAgrees user comments true next) :
      LoadStepped F user comments ran .notify (.ok (next,[.complete response]))

theorem loadStepped {F : Foundation Data} {user : Option (ResponseType User)}
    {comments : Option (ResponseType (List Comment))} {ran : Bool} {s : LoadPostDetails}
    (agrees : LoadAgrees user comments ran s) {e : LoadEvent Data}
    {block : Except Trap (Out Action LoadPostDetails (ResponseType PostDetails))}
    (ok : s.step F e = some block) : LoadStepped F user comments ran e block := by
  cases e with
  | userReply reply =>
    simp only [LoadPostDetails.step,bind,Option.bind_eq_some_iff] at ok
    obtain ⟨inner,replied,last⟩ := ok
    obtain ⟨outstanding,rfl⟩ := taskReplySource replied
    have opened : user = none := by
      rw [agrees.userTask] at outstanding
      exact Option.isNone_iff_eq_none.mp outstanding
    subst opened
    cases Option.some.inj last
    change LoadStepped F _ _ _ _ (Except.bind ((userAnswer F reply).map _) _)
    cases answer : userAnswer F reply with
    | error t => exact .userTrapped rfl answer
    | ok response =>
      obtain ⟨vars,left,next⟩ := joinUser agrees.join response
      simp only [Except.map,Except.bind,handle,left,bind]
      exact .userAnswered rfl answer ⟨next,rfl,agrees.commentsTask⟩
  | commentsReply reply =>
    simp only [LoadPostDetails.step,bind,Option.bind_eq_some_iff] at ok
    obtain ⟨inner,replied,last⟩ := ok
    obtain ⟨outstanding,rfl⟩ := taskReplySource replied
    have opened : comments = none := by
      rw [agrees.commentsTask] at outstanding
      exact Option.isNone_iff_eq_none.mp outstanding
    subst opened
    cases Option.some.inj last
    obtain ⟨vars,left,next⟩ := joinComments agrees.join (commentsAnswer F reply)
    unfold commentsAnswer at left next
    simp only [Except.map,Except.bind,handle,left,bind]
    exact .commentsAnswered rfl ⟨next,agrees.userTask,rfl⟩
  | notify =>
    simp only [LoadPostDetails.step,bind,Option.bind_eq_some_iff] at ok
    obtain ⟨group,run,last⟩ := ok
    obtain ⟨users,lists,first,next,response,block,value⟩ := joinNotify agrees.join run
    cases Option.some.inj last
    simp only [block,Except.bind]
    exact .joined users lists first value ⟨next,agrees.userTask,agrees.commentsTask⟩

theorem loadFinished {F : Foundation Data} {user : Option (ResponseType User)}
    {comments : Option (ResponseType (List Comment))} {s : LoadPostDetails}
    (agrees : LoadAgrees user comments true s) (e : LoadEvent Data) : s.step F e = none := by
  obtain ⟨users,lists⟩ := joinRan agrees.join
  cases found : s.step F e with
  | none => rfl
  | some block =>
    cases loadStepped agrees found with
    | userAnswered opened _ _ => cases opened; cases users
    | userTrapped opened _ => cases opened; cases users
    | commentsAnswered opened _ => cases opened; cases lists
    | joined _ _ first _ _ => cases first

theorem loadSettled {F : Foundation Data} {user : Option (ResponseType User)}
    {comments : Option (ResponseType (List Comment))} {ran : Bool} {s : LoadPostDetails}
    (agrees : LoadAgrees user comments ran s) (idle : ∀ e, s.step F e = none) : ran = true := by
  have users : user.isNone = false := by
    have waiting := idle (.userReply ⟨none,none⟩)
    simp only [LoadPostDetails.step,bind,Option.bind_eq_none_iff,reduceCtorEq,imp_false] at waiting
    rw [← agrees.userTask]
    exact taskReplyIdle (Option.eq_none_iff_forall_ne_some.mpr waiting)
  have lists : comments.isNone = false := by
    have waiting := idle (.commentsReply ⟨none,none⟩)
    simp only [LoadPostDetails.step,bind,Option.bind_eq_none_iff,reduceCtorEq,imp_false] at waiting
    rw [← agrees.commentsTask]
    exact taskReplyIdle (Option.eq_none_iff_forall_ne_some.mpr waiting)
  have waiting := idle .notify
  simp only [LoadPostDetails.step,bind,Option.bind_eq_none_iff,reduceCtorEq,imp_false] at waiting
  exact joinSettled agrees.join users lists (Option.eq_none_iff_forall_ne_some.mpr waiting)

def body (F : Foundation Data) (decode : Json → Option α) (reply : Reply Data) : Option α :=
  match reply.error with
  | some _ => none
  | none => reply.data.bind (jsonDecode F decode)

theorem decodeCompletionValue (F : Foundation Data) (decode : Json → Option α) (reply : Reply Data) :
    (decodeCompletion F decode (taskResponse reply)).value = body F decode reply := by
  obtain ⟨data,error⟩ := reply
  cases error with
  | some e => rfl
  | none =>
    cases data with
    | none => rfl
    | some data =>
      cases decoded : jsonDecode F decode data <;>
        simp [decodeCompletion,taskResponse,Payload.make,body,decoded]

theorem userAnswerCases (F : Foundation Data) (reply : Reply Data) :
    (body F (decodeArray User.decode) reply = some [] ∧ userAnswer F reply = .error .firstUserIsNil) ∨
    (body F (decodeArray User.decode) reply ≠ some [] ∧ ∃ response, userAnswer F reply = .ok response ∧
      response.value = (body F (decodeArray User.decode) reply).bind List.head?) := by
  obtain ⟨data,error⟩ := reply
  cases error with
  | some e => exact Or.inr ⟨nofun,_,rfl,rfl⟩
  | none =>
    cases data with
    | none => exact Or.inr ⟨nofun,_,rfl,rfl⟩
    | some data =>
      simp only [body,userAnswer,taskResponse,Payload.make,Option.map_some,getPostUserCompletion,
        Option.bind_some]
      cases jsonDecode F (decodeArray User.decode) data with
      | none => exact Or.inr ⟨nofun,_,rfl,rfl⟩
      | some users =>
        cases users with
        | nil => exact Or.inl ⟨rfl,rfl⟩
        | cons first rest => exact Or.inr ⟨by simp,_,rfl,rfl⟩

end BabylonHealthDemo
