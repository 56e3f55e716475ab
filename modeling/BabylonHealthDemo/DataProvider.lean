import BabylonHealthDemo.DatabaseAPI

/-! DataProvider: each retrieval tries the network and falls back to the database.
A network success is delivered first and then written, without a completion for
the write. The two retrievals are the calls of one machine whose blocks run on
the main queue. -/
namespace BabylonHealthDemo
open JsonTree PathStore Callbacks

structure RetrieveAllPosts where
  task : DataTask
  read : Option Read

inductive PostsEvent (Data : Type) where
  | reply (reply : Reply Data)
  | read (event : ReadEvent)

namespace RetrieveAllPosts

def networkCompletion (F : Foundation Data) (s : RetrieveAllPosts) :
    ResponseType (List Post) → Except Trap (Out Action RetrieveAllPosts (ResponseType (List Post)))
  | .success posts => .ok (s,.complete (.success posts) :: ignore (writePosts F posts))
  | .failure _ => .ok ({s with read := some readPosts},[])

def databaseCompletion : ResponseType (List Post) → ResponseType (List Post)
  | .success posts => .success posts
  | .failure _ => .failure (.data .unableToReadAllPostsData)

def step (F : Foundation Data) (s : RetrieveAllPosts) :
    PostsEvent Data → Option (Except Trap (Out Action RetrieveAllPosts (ResponseType (List Post))))
  | .reply reply => do
    let block ← loadPostsReply F s.task reply
    some (do
      let (task,out) ← block
      handle (networkCompletion F) {s with task := task} out)
  | .read e => do
    let r ← s.read
    let block ← readPostsStep F r e
    some (do
      let (r,out) ← block
      let out ← transform (fun response => .ok (databaseCompletion response)) out
      .ok ({s with read := some r},out))

end RetrieveAllPosts

def retrieveAllPosts (F : Foundation Data) :
    Except Trap (Out Action RetrieveAllPosts (ResponseType (List Post))) := do
  let (task,out) ← loadPosts F
  handle (RetrieveAllPosts.networkCompletion F) ⟨task,none⟩ out

structure RetrievePostDetails where
  userId : Int64
  postId : Int64
  load : LoadPostDetails
  read : Option ReadPostDetails

inductive DetailsEvent (Data : Type) where
  | load (event : LoadEvent Data)
  | read (event : ReadDetailsEvent)

namespace RetrievePostDetails

def networkCompletion (F : Foundation Data) (s : RetrievePostDetails) :
    ResponseType PostDetails → Except Trap (Out Action RetrievePostDetails (ResponseType PostDetails))
  | .success postDetails => .ok (s,.complete (.success postDetails) ::
      ignore (writePostDetails F postDetails.user postDetails.comments))
  | .failure _ => .ok ({s with read := some (readPostDetails s.userId s.postId)},[])

def databaseCompletion : ResponseType PostDetails → ResponseType PostDetails
  | .success postDetails => .success postDetails
  | .failure _ => .failure (.data .unableToReadPostDetailsData)

def step (F : Foundation Data) (s : RetrievePostDetails) :
    DetailsEvent Data → Option (Except Trap (Out Action RetrievePostDetails (ResponseType PostDetails)))
  | .load e => do
    let block ← s.load.step F e
    some (do
      let (load,out) ← block
      handle (networkCompletion F) {s with load := load} out)
  | .read e => do
    let r ← s.read
    let block ← r.step F e
    some (do
      let (r,out) ← block
      let out ← transform (fun response => .ok (databaseCompletion response)) out
      .ok ({s with read := some r},out))

end RetrievePostDetails

def retrievePostDetails (F : Foundation Data) (userId postId : Int64) :
    Except Trap (Out Action RetrievePostDetails (ResponseType PostDetails)) := do
  let (load,out) ← loadPostDetails F userId postId
  handle (RetrievePostDetails.networkCompletion F) ⟨userId,postId,load,none⟩ out

inductive CallArgs where
  | retrieveAllPosts
  | retrievePostDetails (userId postId : Int64)
  deriving DecidableEq, Repr

inductive CallState where
  | posts (state : RetrieveAllPosts)
  | details (state : RetrievePostDetails)

inductive CallEvent (Data : Type) where
  | posts (event : PostsEvent Data)
  | details (event : DetailsEvent Data)

inductive CallResponse where
  | posts (response : ResponseType (List Post))
  | details (response : ResponseType PostDetails)
  deriving DecidableEq, Repr

def tag (state : σ → CallState) (response : ρ → CallResponse) (block : Except Trap (Out Action σ ρ)) :
    Except Trap (Out Action CallState CallResponse) :=
  block.map (fun out => (state out.1,relabel response out.2))

def dataProvider (F : Foundation Data) :
    Machine CallArgs CallState (CallEvent Data) Action CallResponse Trap where
  start
    | .retrieveAllPosts => tag .posts .posts (retrieveAllPosts F)
    | .retrievePostDetails userId postId => tag .details .details (retrievePostDetails F userId postId)
  step
    | .posts s,.posts e => (s.step F e).map (tag .posts .posts)
    | .details s,.details e => (s.step F e).map (tag .details .details)
    | _,_ => none

theorem tagSource {state : σ → CallState} {response : ρ → CallResponse}
    {block : Except Trap (Out Action σ ρ)} {next : CallState} {out : List (Effect Action CallResponse)}
    (ok : tag state response block = .ok (next,out)) :
    ∃ s inner, block = .ok (s,inner) ∧ next = state s ∧ out = relabel response inner := by
  cases block with
  | error t => cases ok
  | ok inner =>
    cases ok
    exact ⟨_,_,rfl,rfl,rfl⟩

inductive PostsRan (F : Foundation Data) (s : RetrieveAllPosts) :
    PostsEvent Data → RetrieveAllPosts → List (Effect Action (ResponseType (List Post))) → Prop where
  | reply {reply task inner next out} (answered : loadPostsReply F s.task reply = some (.ok (task,inner)))
      (handled : handle (RetrieveAllPosts.networkCompletion F) {s with task := task} inner = .ok (next,out)) :
      PostsRan F s (.reply reply) next out
  | read {e r read inner out} (reading : s.read = some r)
      (answered : readPostsStep F r e = some (.ok (read,inner)))
      (transformed : transform (fun response => .ok (RetrieveAllPosts.databaseCompletion response)) inner =
        (.ok out : Except Trap _)) : PostsRan F s (.read e) {s with read := some read} out

theorem postsRan {F : Foundation Data} {s next : RetrieveAllPosts} {e : PostsEvent Data}
    {out : List (Effect Action (ResponseType (List Post)))} (ok : s.step F e = some (.ok (next,out))) :
    PostsRan F s e next out := by
  cases e with
  | reply reply =>
    simp only [RetrieveAllPosts.step,bind,Option.bind_eq_some_iff] at ok
    obtain ⟨block,answered,last⟩ := ok
    obtain ⟨_,rfl,handled⟩ := okBind (Option.some.inj last)
    exact .reply answered handled
  | read e =>
    simp only [RetrieveAllPosts.step,bind,Option.bind_eq_some_iff] at ok
    obtain ⟨r,reading,block,answered,last⟩ := ok
    obtain ⟨_,rfl,more⟩ := okBind (Option.some.inj last)
    obtain ⟨_,transformed,same⟩ := okBind more
    cases same
    exact .read reading answered transformed

inductive DetailsRan (F : Foundation Data) (s : RetrievePostDetails) :
    DetailsEvent Data → RetrievePostDetails → List (Effect Action (ResponseType PostDetails)) → Prop where
  | load {e load inner next out} (stepped : s.load.step F e = some (.ok (load,inner)))
      (handled : handle (RetrievePostDetails.networkCompletion F) {s with load := load} inner = .ok (next,out)) :
      DetailsRan F s (.load e) next out
  | read {e r read inner out} (reading : s.read = some r) (stepped : r.step F e = some (.ok (read,inner)))
      (transformed : transform (fun response => .ok (RetrievePostDetails.databaseCompletion response)) inner =
        (.ok out : Except Trap _)) : DetailsRan F s (.read e) {s with read := some read} out

theorem detailsRan {F : Foundation Data} {s next : RetrievePostDetails} {e : DetailsEvent Data}
    {out : List (Effect Action (ResponseType PostDetails))} (ok : s.step F e = some (.ok (next,out))) :
    DetailsRan F s e next out := by
  cases e with
  | load e =>
    simp only [RetrievePostDetails.step,bind,Option.bind_eq_some_iff] at ok
    obtain ⟨block,stepped,last⟩ := ok
    obtain ⟨_,rfl,handled⟩ := okBind (Option.some.inj last)
    exact .load stepped handled
  | read e =>
    simp only [RetrievePostDetails.step,bind,Option.bind_eq_some_iff] at ok
    obtain ⟨r,reading,block,stepped,last⟩ := ok
    obtain ⟨_,rfl,more⟩ := okBind (Option.some.inj last)
    obtain ⟨_,transformed,same⟩ := okBind more
    cases same
    exact .read reading stepped transformed

inductive CallRan (F : Foundation Data) :
    CallState → CallEvent Data → CallState → List (Effect Action CallResponse) → Prop where
  | posts {s e next out} (stepped : RetrieveAllPosts.step F s e = some (.ok (next,out))) :
      CallRan F (.posts s) (.posts e) (.posts next) (relabel .posts out)
  | details {s e next out} (stepped : RetrievePostDetails.step F s e = some (.ok (next,out))) :
      CallRan F (.details s) (.details e) (.details next) (relabel .details out)

theorem callRan {F : Foundation Data} {s next : CallState} {e : CallEvent Data}
    {out : List (Effect Action CallResponse)} (ok : (dataProvider F).step s e = some (.ok (next,out))) :
    CallRan F s e next out := by
  cases s <;> cases e <;> try contradiction
  · obtain ⟨block,stepped,tagged⟩ := Option.map_eq_some_iff.mp ok
    obtain ⟨s,inner,rfl,rfl,rfl⟩ := tagSource tagged
    exact .posts stepped
  · obtain ⟨block,stepped,tagged⟩ := Option.map_eq_some_iff.mp ok
    obtain ⟨s,inner,rfl,rfl,rfl⟩ := tagSource tagged
    exact .details stepped

inductive NetworkSuccess where
  | posts (posts : List Post)
  | details (userId postId : Int64) (user : User) (comments : List Comment)
  deriving DecidableEq, Repr

def networkSuccess (F : Foundation Data) : CallState → CallEvent Data → Option NetworkSuccess
  | .posts _,.posts (.reply reply) => (postsAnswer F reply).value.map .posts
  | .details s,.details (.load .notify) =>
    (both s.load.vars.user s.load.vars.comments).map (fun d => .details s.userId s.postId d.user d.comments)
  | _,_ => none

def NetworkSuccess.writes (F : Foundation Data) : NetworkSuccess → List Write
  | .posts list => writesOf (actions (writePosts F list))
  | .details _ _ user comments => writesOf (actions (writePostDetails F user comments))

def NetworkSuccess.response : NetworkSuccess → CallResponse
  | .posts list => .posts (.success list)
  | .details _ _ user comments => .details (.success ⟨user,comments⟩)

def successWrites (F : Foundation Data) (success : Option NetworkSuccess) : List Write :=
  match success with
  | none => []
  | some n => n.writes F

end BabylonHealthDemo
