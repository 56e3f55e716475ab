import BabylonHealthDemo.CacheKeys

/-! The network requests on their own, under any replies in any order. A body is what
a reply carries when it has no error, has data and decodes. Every reply ends in a
value or a failure, except a decoded empty array of users: its first element is
unwrapped, and the process dies. -/
namespace BabylonHealthDemo
open JsonTree PathStore Callbacks

def postsRequest (F : Foundation Data) :
    Machine Unit DataTask (Reply Data) Action (ResponseType (List Post)) Trap :=
  ⟨fun _ => loadPosts F,loadPostsReply F⟩

def postDetailsRequests (F : Foundation Data) :
    Machine (Int64 × Int64) LoadPostDetails (LoadEvent Data) Action (ResponseType PostDetails) Trap :=
  ⟨fun ids => loadPostDetails F ids.1 ids.2,LoadPostDetails.step F⟩

structure RequestsAgree (F : Foundation Data) (events : List (LoadEvent Data))
    (user : Option (ResponseType User)) (comments : Option (ResponseType (List Comment))) (ran : Bool)
    (s : LoadPostDetails) (delivered : List (ResponseType PostDetails)) : Prop where
  load : LoadAgrees user comments ran s
  users : ∀ u, received user = some u ↔ ∃ reply, .userReply reply ∈ events ∧
    (body F (decodeArray User.decode) reply).bind List.head? = some u
  lists : ∀ list, received comments = some list ↔ ∃ reply, .commentsReply reply ∈ events ∧
    body F (decodeArray Comment.decode) reply = some list
  nonempty : ∀ reply, .userReply reply ∈ events → body F (decodeArray User.decode) reply ≠ some []
  waiting : ran = false → delivered = []
  joined : ran = true → ∃ response, delivered = [response] ∧
    response.value = both (received user) (received comments)

theorem requestsRun {F : Foundation Data} {ids : Int64 × Int64} {events : List (LoadEvent Data)}
    {i : Instance (Int64 × Int64) LoadPostDetails (ResponseType PostDetails)}
    (ran : (postDetailsRequests F).exec ids events = some (.ok i)) :
    ∃ user comments finished, RequestsAgree F events user comments finished i.state i.delivered := by
  have initial : ∀ i, (postDetailsRequests F).spawn ids = .ok i →
      ∃ user comments finished, RequestsAgree F [] user comments finished i.state i.delivered := by
    intro i spawned
    obtain ⟨s,out,started,silent,_,load⟩ := loadStarts F ids.1 ids.2
    obtain ⟨_,_,again,rfl⟩ := Machine.spawnOk spawned
    cases started.symm.trans again
    exact ⟨_,_,false,load,by simp [refusedReceived],by simp [refusedReceived],by simp,fun _ => silent,nofun⟩
  refine (Machine.execInvariant (fun events i => ∃ user comments finished,
    RequestsAgree F events user comments finished i.state i.delivered) initial ?_ ran).1
  rintro events i e next ⟨user,comments,finished,agrees⟩ _ advanced
  obtain ⟨s,out,stepped,rfl⟩ := Machine.advanceOk advanced
  cases loadStepped agrees.load stepped with
  | @userAnswered reply response next opened answer load =>
    subst opened
    have silent : i.delivered = [] := by
      cases finished with
      | false => exact agrees.waiting rfl
      | true => exact absurd (joinRan agrees.load.join).1 nofun
    obtain ⟨_,trap⟩ | ⟨nonempty,_,answered,value⟩ := userAnswerCases F reply
    · rw [trap] at answer
      cases answer
    · cases answer.symm.trans answered
      refine ⟨some response,comments,false,load,?_,?_,?_,fun _ => by simp [silent],nofun⟩
      · intro u
        have earlier := agrees.users u
        simp only [List.mem_append,List.mem_singleton,LoadEvent.userReply.injEq]
        constructor
        · intro found
          exact ⟨reply,Or.inr rfl,value ▸ found⟩
        · rintro ⟨other,old | rfl,found⟩
          · cases earlier.mpr ⟨other,old,found⟩
          · exact value.trans found
      · simpa using agrees.lists
      · intro other member
        rcases List.mem_append.mp member with old | new
        · exact agrees.nonempty other old
        · cases List.mem_singleton.mp new
          exact nonempty
  | @commentsAnswered reply next opened load =>
    subst opened
    have silent : i.delivered = [] := by
      cases finished with
      | false => exact agrees.waiting rfl
      | true => exact absurd (joinRan agrees.load.join).2 nofun
    refine ⟨user,some (commentsAnswer F reply),false,load,?_,?_,?_,fun _ => by simp [silent],nofun⟩
    · simpa using agrees.users
    · intro list
      have earlier := agrees.lists list
      have value : received (some (commentsAnswer F reply)) = body F (decodeArray Comment.decode) reply :=
        decodeCompletionValue F _ reply
      simp only [List.mem_append,List.mem_singleton,LoadEvent.commentsReply.injEq]
      constructor
      · intro found
        exact ⟨reply,Or.inr rfl,value ▸ found⟩
      · rintro ⟨other,old | rfl,found⟩
        · cases earlier.mpr ⟨other,old,found⟩
        · exact value.trans found
    · simpa using agrees.nonempty
  | @joined response next users lists first value load =>
    refine ⟨user,comments,true,load,?_,?_,?_,nofun,fun _ => ⟨response,?_,value⟩⟩
    · simpa using agrees.users
    · simpa using agrees.lists
    · simpa using agrees.nonempty
    · simp [agrees.waiting first]

theorem requestsAlive {F : Foundation Data} {ids : Int64 × Int64} {events : List (LoadEvent Data)}
    {result : Except Trap (Instance (Int64 × Int64) LoadPostDetails (ResponseType PostDetails))}
    (ran : (postDetailsRequests F).exec ids events = some result)
    (nonempty : ∀ reply, .userReply reply ∈ events → body F (decodeArray User.decode) reply ≠ some []) :
    ∃ i, result = .ok i := by
  cases result with
  | ok i => exact ⟨i,rfl⟩
  | error t =>
    rcases Machine.execTrap ran with started | ⟨before,i,e,rfl,ranBefore,stepped⟩
    · obtain ⟨_,_,starts,_⟩ := loadStarts F ids.1 ids.2
      cases starts.symm.trans started
    · obtain ⟨_,_,_,agrees⟩ := requestsRun ranBefore
      cases loadStepped agrees.load stepped with
      | @userTrapped reply _ _ trap =>
        obtain ⟨empty,_⟩ | ⟨_,_,answered,_⟩ := userAnswerCases F reply
        · exact absurd empty (nonempty reply (by simp))
        · cases trap.symm.trans answered

theorem requestsSettled {F : Foundation Data} {ids : Int64 × Int64} {events : List (LoadEvent Data)}
    {i : Instance (Int64 × Int64) LoadPostDetails (ResponseType PostDetails)}
    (ran : (postDetailsRequests F).exec ids events = some (.ok i))
    (settled : ∀ e, i.state.step F e = none) :
    ∃ response, i.delivered = [response] ∧ ∀ d, response.value = some d ↔
      (∃ reply, .userReply reply ∈ events ∧
        (body F (decodeArray User.decode) reply).bind List.head? = some d.user) ∧
      ∃ reply, .commentsReply reply ∈ events ∧
        body F (decodeArray Comment.decode) reply = some d.comments := by
  obtain ⟨user,comments,finished,agrees⟩ := requestsRun ran
  obtain ⟨response,delivered,value⟩ := agrees.joined (loadSettled agrees.load settled)
  refine ⟨response,delivered,fun d => ?_⟩
  rw [← agrees.users,← agrees.lists,value,bothSome]

theorem postsRequestStarts (F : Foundation Data) :
    ∃ task out, loadPosts F = .ok (task,out) ∧ (task.outstanding = true ∧ completions out = [] ∨
      task.outstanding = false ∧
        completions out = [(.failure (.networkingService .urlError) : ResponseType (List Post))]) := by
  rcases requestStarts F Constants.postsRoute none
    (fun response => .ok (loadPostsCompletion F response)) (fun _ => rfl)
    with ⟨_,task,outstanding,starts⟩ | ⟨_,task,outstanding,starts⟩
  · exact ⟨task,_,starts,Or.inl ⟨outstanding,rfl⟩⟩
  · exact ⟨task,_,starts,Or.inr ⟨outstanding,rfl⟩⟩

theorem postsReplyBlock {F : Foundation Data} {task : DataTask} {reply : Reply Data}
    {block : Except Trap (Out Action DataTask (ResponseType (List Post)))}
    (ok : loadPostsReply F task reply = some block) : task.outstanding = true ∧
      block = .ok (.completed,[.act (.networkActivityIndicator false),.complete (postsAnswer F reply)]) :=
  taskReplySource ok

theorem postsRequestRun {F : Foundation Data} {events : List (Reply Data)}
    {i : Instance Unit DataTask (ResponseType (List Post))}
    (ran : (postsRequest F).exec () events = some (.ok i)) :
    (i.state.outstanding = true ∧ events = [] ∧ i.delivered = []) ∨
    (i.state.outstanding = false ∧ ∃ response, i.delivered = [response] ∧
      ∀ list, response = .success list ↔
        ∃ reply ∈ events, body F (decodeArray Post.decode) reply = some list) := by
  have initial : ∀ i, (postsRequest F).spawn () = .ok i →
      (i.state.outstanding = true ∧ ([] : List (Reply Data)) = [] ∧ i.delivered = []) ∨
      (i.state.outstanding = false ∧ ∃ response, i.delivered = [response] ∧
        ∀ list, response = .success list ↔
          ∃ reply ∈ ([] : List (Reply Data)), body F (decodeArray Post.decode) reply = some list) := by
    intro i spawned
    obtain ⟨task,out,started,standing⟩ := postsRequestStarts F
    obtain ⟨_,_,again,rfl⟩ := Machine.spawnOk spawned
    cases started.symm.trans again
    rcases standing with ⟨outstanding,silent⟩ | ⟨outstanding,refused⟩
    · exact Or.inl ⟨outstanding,rfl,silent⟩
    · exact Or.inr ⟨outstanding,_,refused,by simp⟩
  refine (Machine.execInvariant (fun events i =>
    (i.state.outstanding = true ∧ events = [] ∧ i.delivered = []) ∨
    (i.state.outstanding = false ∧ ∃ response, i.delivered = [response] ∧
      ∀ list, response = .success list ↔
        ∃ reply ∈ events, body F (decodeArray Post.decode) reply = some list)) initial ?_ ran).1
  intro events i reply next agrees _ advanced
  obtain ⟨s,out,stepped,rfl⟩ := Machine.advanceOk advanced
  obtain ⟨outstanding,same⟩ := postsReplyBlock stepped
  cases same
  rcases agrees with ⟨_,rfl,silent⟩ | ⟨idle,_⟩
  · refine Or.inr ⟨rfl,postsAnswer F reply,by simp [silent],fun list => ?_⟩
    have value : (postsAnswer F reply).value = body F (decodeArray Post.decode) reply :=
      decodeCompletionValue F _ reply
    simp only [List.nil_append,List.mem_singleton,exists_eq_left,← value]
    cases postsAnswer F reply <;> simp
  · rw [outstanding] at idle
    cases idle

theorem networkRequestsSurvive (F : Foundation Data) {postsEvents : List (Reply Data)}
    {postsResult : Except Trap (Instance Unit DataTask (ResponseType (List Post)))}
    (postsRan : (postsRequest F).exec () postsEvents = some postsResult)
    {userId postId : Int64} {events : List (LoadEvent Data)}
    {result : Except Trap (Instance (Int64 × Int64) LoadPostDetails (ResponseType PostDetails))}
    (ran : (postDetailsRequests F).exec (userId,postId) events = some result) :
    (∃ i, postsResult = .ok i ∧ ((∀ reply, loadPostsReply F i.state reply = none) →
      ∃ response, i.delivered = [response] ∧ ∀ list, response = .success list ↔
        ∃ reply ∈ postsEvents, body F (decodeArray Post.decode) reply = some list)) ∧
    ((∃ i, result = .ok i ∧ ((∀ e, i.state.step F e = none) →
        ∃ response, i.delivered = [response] ∧ ∀ d, response = .success d ↔
          (∃ reply, .userReply reply ∈ events ∧
            (body F (decodeArray User.decode) reply).bind List.head? = some d.user) ∧
          ∃ reply, .commentsReply reply ∈ events ∧
            body F (decodeArray Comment.decode) reply = some d.comments)) ↔
      ∀ reply, .userReply reply ∈ events → body F (decodeArray User.decode) reply ≠ some []) := by
  constructor
  · cases postsResult with
    | error t =>
      rcases Machine.execTrap postsRan with started | ⟨_,i,reply,_,_,stepped⟩
      · obtain ⟨_,_,starts,_⟩ := postsRequestStarts F
        cases starts.symm.trans started
      · cases (postsReplyBlock stepped).2
    | ok i =>
      refine ⟨i,rfl,fun settled => ?_⟩
      rcases postsRequestRun postsRan with ⟨outstanding,_,_⟩ | ⟨_,answered⟩
      · have idle := taskReplyIdle (settled ⟨none,none⟩)
        rw [outstanding] at idle
        cases idle
      · exact answered
  · constructor
    · rintro ⟨i,rfl,_⟩
      obtain ⟨_,_,_,agrees⟩ := requestsRun ran
      exact agrees.nonempty
    · intro nonempty
      obtain ⟨i,rfl⟩ := requestsAlive ran nonempty
      refine ⟨i,rfl,fun settled => ?_⟩
      obtain ⟨response,delivered,value⟩ := requestsSettled ran settled
      refine ⟨response,delivered,fun d => ?_⟩
      rw [← valueSome]
      exact value d

def emptyUsersReply : Reply Json := ⟨some (.array []),none⟩

theorem oneUserSurvives : ∃ i, (postDetailsRequests plainFoundation).exec (1,2)
      [.commentsReply ⟨none,none⟩,.userReply ⟨some (encodeArray User.encode [sampleUser 1]),none⟩,.notify] =
        some (.ok i) ∧
    (∃ posts, (postsRequest plainFoundation).exec () [emptyUsersReply] = some (.ok posts) ∧
      posts.delivered = [.success []]) ∧
    i.delivered = [.failure (.networkingService .noDataReceived)] ∧
    ∃ response, i.delivered = [response] ∧ ∀ d, response ≠ .success d := by
  have ran : (postDetailsRequests plainFoundation).exec (1,2) [.commentsReply ⟨none,none⟩,
    .userReply ⟨some (encodeArray User.encode [sampleUser 1]),none⟩,.notify] = some (.ok _) := rfl
  have survives := (networkRequestsSurvive plainFoundation
    (show (postsRequest plainFoundation).exec () [emptyUsersReply] = some _ from rfl) ran).2.mpr
    (fun reply member => by
      simp at member
      subst member
      exact nofun)
  obtain ⟨j,same,settled⟩ := survives
  cases same
  obtain ⟨response,delivered,value⟩ := settled (by rintro (reply | reply | _) <;> rfl)
  refine ⟨_,ran,⟨_,rfl,rfl⟩,rfl,response,delivered,fun d success => ?_⟩
  obtain ⟨_,reply,member,found⟩ := (value d).mp success
  simp at member
  subst member
  cases found

theorem emptyUsersCrash : (postDetailsRequests plainFoundation).exec (1,2)
    [.userReply emptyUsersReply] = some (.error .firstUserIsNil) ∧
    body plainFoundation (decodeArray User.decode) emptyUsersReply = some [] := ⟨rfl,rfl⟩

end BabylonHealthDemo
