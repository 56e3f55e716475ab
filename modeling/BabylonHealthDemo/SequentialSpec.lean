import BabylonHealthDemo.DataProvider

/-! What one retrieval is for, without callbacks: the network value, else the cached
value, else one fixed error. The specification sees only what the call's own
requests and reads have answered. The agreement relations tie it to the state of
the callback code, and are kept by every block that the main queue runs. -/
namespace BabylonHealthDemo
open JsonTree PathStore Callbacks

def orFailure (value : Option α) (error : DataError) : ResponseType α :=
  match value with
  | some a => .success a
  | none => .failure (.data error)

inductive ReadName where
  | posts
  | user
  | comments
  deriving DecidableEq, Repr

/- What the blocks of a call bring: the replies to its requests, and of each read the
snapshot or the timeout. -/
def postsReply : CallEvent Data → Option (Reply Data)
  | .posts (.reply reply) => some reply
  | _ => none

def userReply : CallEvent Data → Option (Reply Data)
  | .details (.load (.userReply reply)) => some reply
  | _ => none

def commentsReply : CallEvent Data → Option (Reply Data)
  | .details (.load (.commentsReply reply)) => some reply
  | _ => none

def readBlock : ReadName → CallEvent Data → Option ReadEvent
  | .posts,.posts (.read e) => some e
  | .user,.details (.read (.user e)) => some e
  | .comments,.details (.read (.comments e)) => some e
  | _,_ => none

def DataSnapshot.decoded (F : Foundation Data) (decode : Json → Option α) (snapshot : DataSnapshot) : Option α :=
  if snapshot.exists then
    snapshot.value.bind (fun object =>
      if object.isContainer then (F.dataWithJSONObject object).bind (jsonDecode F decode) else none)
  else none

def networkValue (F : Foundation Data) (decode : Json → Option α) (reply : Option (Reply Data)) : Option α :=
  reply.bind (body F decode)

def cachedValue (F : Foundation Data) (decode : Json → Option α) : Option ReadEvent → Option α
  | some (.snapshot snapshot) => snapshot.decoded F decode
  | _ => none

/- The response that a call owes, given the blocks it has received. -/
def sequentialSpec (F : Foundation Data) (args : CallArgs) (events : List (CallEvent Data)) : CallResponse :=
  match args with
  | .retrieveAllPosts =>
    let network := networkValue F (decodeArray Post.decode) (events.findSome? postsReply)
    let cached := cachedValue F (decodeArray Post.decode) (events.findSome? (readBlock .posts))
    .posts (orFailure (network.or cached) .unableToReadAllPostsData)
  | .retrievePostDetails _ _ =>
    let users := networkValue F (decodeArray User.decode) (events.findSome? userReply)
    let comments := networkValue F (decodeArray Comment.decode) (events.findSome? commentsReply)
    let cachedUser := cachedValue F User.decode (events.findSome? (readBlock .user))
    let cachedComments := cachedValue F (decodeArray Comment.decode) (events.findSome? (readBlock .comments))
    .details (orFailure ((both (users.bind List.head?) comments).or (both cachedUser cachedComments))
      .unableToReadPostDetailsData)

structure DetailsAnswers where
  user : Option (ResponseType User)
  comments : Option (ResponseType (List Comment))
  userRace : Race
  commentsRace : Race

structure PostsAnswers where
  network : Option (ResponseType (List Post))
  race : Race

def DetailsAnswers.initial (F : Foundation Data) (userId postId : Int64) : DetailsAnswers :=
  ⟨refused F Constants.usersRoute (some (userParams userId)),
    refused F Constants.commentsRoute (some (commentsParams postId)),.open,.open⟩

def PostsAnswers.initial (F : Foundation Data) : PostsAnswers := ⟨refused F Constants.postsRoute none,.open⟩

def DetailsAnswers.next (F : Foundation Data) (a : DetailsAnswers) : DetailsEvent Data → DetailsAnswers
  | .load (.userReply reply) => {a with user := a.user.or (userAnswer F reply).toOption}
  | .load (.commentsReply reply) => {a with comments := a.comments.or (some (commentsAnswer F reply))}
  | .load .notify => a
  | .read (.user e) => {a with userRace := a.userRace.next e}
  | .read (.comments e) => {a with commentsRace := a.commentsRace.next e}
  | .read .notify => a

def PostsAnswers.next (F : Foundation Data) (a : PostsAnswers) : PostsEvent Data → PostsAnswers
  | .reply reply => {a with network := a.network.or (some (postsAnswer F reply))}
  | .read e => {a with race := a.race.next e}

def readValue (F : Foundation Data) (decode : Json → Option α) (race : Race) : Option α :=
  match raceAnswer F decode race with
  | some (.ok response) => response.value
  | _ => none

def detailsSpec (F : Foundation Data) (a : DetailsAnswers) : ResponseType PostDetails :=
  orFailure ((both (received a.user) (received a.comments)).or
    (both (readValue F User.decode a.userRace) (readValue F (decodeArray Comment.decode) a.commentsRace)))
    .unableToReadPostDetailsData

def postsSpec (F : Foundation Data) (a : PostsAnswers) : ResponseType (List Post) :=
  orFailure ((received a.network).or (readValue F (decodeArray Post.decode) a.race)) .unableToReadAllPostsData

theorem raceClosed {race : Race} (closed : race ≠ .open) (e : ReadEvent) : race.next e = race := by
  cases race with
  | «open» => exact absurd rfl closed
  | _ => cases e <;> rfl

theorem readValueAnswered {F : Foundation Data} {decode : Json → Option α} {race : Race}
    {response : Option (ResponseType α)} (answer : raceAnswer F decode race = response.map .ok) :
    readValue F decode race = received response := by
  cases response <;> simp [readValue,answer,received]

theorem findSomeSnoc (f : ε → Option β) (events : List ε) (e : ε) :
    (events ++ [e]).findSome? f = (events.findSome? f).or (f e) := by
  rw [List.findSome?_append,List.findSome?_singleton]

theorem findSomeQuiet {f : ε → Option β} {e : ε} (quiet : f e = none) (events : List ε) :
    (events ++ [e]).findSome? f = events.findSome? f := by
  rw [findSomeSnoc,quiet,Option.or_none]

def raceOutcome (first : Option ReadEvent) : Race := first.elim .open (Race.next .open)

theorem raceOutcomeSnoc (events : List ε) (f : ε → Option ReadEvent) (e : ε) :
    raceOutcome ((events ++ [e]).findSome? f) =
      (f e).elim (raceOutcome (events.findSome? f)) (raceOutcome (events.findSome? f)).next := by
  rw [findSomeSnoc]
  cases first : events.findSome? f with
  | none => cases f e <;> rfl
  | some r =>
    have closed : raceOutcome (some r) ≠ .open := by cases r <;> exact nofun
    cases f e with
    | none => rfl
    | some later => exact (raceClosed closed later).symm

theorem readValueOutcome (F : Foundation Data) (decode : Json → Option α) (first : Option ReadEvent) :
    readValue F decode (raceOutcome first) = cachedValue F decode first := by
  cases first with
  | none => rfl
  | some e =>
    cases e with
    | timeout => rfl
    | snapshot snapshot =>
      obtain ⟨present,value⟩ := snapshot
      cases present with
      | false => rfl
      | true =>
        cases value with
        | none => rfl
        | some object =>
          simp only [readValue,raceOutcome,Option.elim_some,Race.next,raceAnswer,Race.response,snapshotResponse,
            DataSnapshot.exists,if_true,Option.map_some,readCompletion,decodeObject,dataWithJSONObject,
            cachedValue,DataSnapshot.decoded,Option.bind_some]
          cases object.isContainer with
          | false => rfl
          | true =>
            simp only [if_true,bind,Except.bind]
            cases (F.dataWithJSONObject object).bind (jsonDecode F decode) <;> rfl

inductive DetailsAgrees (F : Foundation Data) (a : DetailsAnswers) :
    RetrievePostDetails → List (ResponseType PostDetails) → Prop where
  | loading {s} (load : LoadAgrees a.user a.comments false s.load) (read : s.read = none)
      (races : a.userRace = .open ∧ a.commentsRace = .open) : DetailsAgrees F a s []
  | loaded {s d} (load : LoadAgrees a.user a.comments true s.load) (read : s.read = none)
      (races : a.userRace = .open ∧ a.commentsRace = .open)
      (value : both (received a.user) (received a.comments) = some d) :
      DetailsAgrees F a s [.success d]
  | reading {s r user comments ran} (load : LoadAgrees a.user a.comments true s.load)
      (value : both (received a.user) (received a.comments) = none) (read : s.read = some r)
      (nodes : r.nodes = ((userConfiguration s.userId).node,(commentsConfiguration s.postId).node))
      (agrees : ReadDetailsAgrees F a.userRace a.commentsRace user comments ran r) :
      DetailsAgrees F a s (if ran then [detailsSpec F a] else [])

inductive DetailsStepped (F : Foundation Data) (a : DetailsAnswers) (s : RetrievePostDetails)
    (delivered : List (ResponseType PostDetails)) (e : DetailsEvent Data) :
    Except Trap (Out Action RetrievePostDetails (ResponseType PostDetails)) → Prop where
  | trapped {t} (cause : (t = .firstUserIsNil ∧ ∃ reply, e = .load (.userReply reply) ∧
          userAnswer F reply = .error t) ∨
        (t = .invalidTopLevelObject ∧ ∃ r, (e = .read (.user r) ∨ e = .read (.comments r)) ∧
          ScalarSnapshot r))
      (silent : networkSuccess F (.details s) (.details e) = none) :
      DetailsStepped F a s delivered e (.error t)
  | ran {next out} (agrees : DetailsAgrees F (a.next F e) next (delivered ++ completions out))
      (ids : next.userId = s.userId ∧ next.postId = s.postId)
      (writes : writesOf (actions out) =
        successWrites F (networkSuccess F (.details s) (.details e)))
      (success : ∀ n, networkSuccess F (.details s) (.details e) = some n →
        (completions out).map .details = [n.response]) :
      DetailsStepped F a s delivered e (.ok (next,out))

theorem handleSilent (closure : σ → ρ → Except Trap (Out Action σ υ)) (s : σ)
    {es : List (Effect Action ρ)} (silent : completions es = []) :
    ∃ rest, handle closure s es = .ok (s,rest) ∧ completions rest = [] ∧ actions rest = actions es := by
  induction es with
  | nil => exact ⟨[],rfl,rfl,rfl⟩
  | cons e es ih =>
    cases e with
    | complete r => cases silent
    | act action =>
      obtain ⟨rest,ran,quiet,same⟩ := ih silent
      exact ⟨.act action :: rest,by simp only [handle,ran,bind,Except.bind],quiet,by simp [same]⟩

theorem detailsStarts (F : Foundation Data) (userId postId : Int64) :
    ∃ s out, retrievePostDetails F userId postId = .ok (s,out) ∧ completions out = [] ∧
      writesOf (actions out) = [] ∧ s.userId = userId ∧ s.postId = postId ∧
      DetailsAgrees F (.initial F userId postId) s [] := by
  obtain ⟨load,out,started,silent,writes,agrees⟩ := loadStarts F userId postId
  obtain ⟨rest,ran,quiet,same⟩ := handleSilent (RetrievePostDetails.networkCompletion F)
    ⟨userId,postId,load,none⟩ silent
  refine ⟨⟨userId,postId,load,none⟩,rest,?_,quiet,by rw [same]; exact writes,rfl,rfl,?_⟩
  · simp only [retrievePostDetails,started,bind,Except.bind,ran]
  · exact .loading agrees rfl ⟨rfl,rfl⟩

theorem databaseCompletionValue (response : ResponseType PostDetails) :
    RetrievePostDetails.databaseCompletion response =
      orFailure response.value .unableToReadPostDetailsData := by
  cases response <;> rfl

theorem detailsLoadStepped {F : Foundation Data} {a : DetailsAnswers} {s : RetrievePostDetails}
    {delivered : List (ResponseType PostDetails)} (agrees : DetailsAgrees F a s delivered)
    {e : LoadEvent Data}
    {block : Except Trap (Out Action RetrievePostDetails (ResponseType PostDetails))}
    (ok : s.step F (.load e) = some block) : DetailsStepped F a s delivered (.load e) block := by
  simp only [RetrievePostDetails.step,bind,Option.bind_eq_some_iff] at ok
  obtain ⟨inner,stepped,last⟩ := ok
  cases Option.some.inj last
  cases agrees with
  | loaded load read races value =>
    rw [loadFinished load e] at stepped
    cases stepped
  | reading load value read nodes reads =>
    rw [loadFinished load e] at stepped
    cases stepped
  | loading load read races =>
    cases loadStepped load stepped with
    | userTrapped opened answer => exact .trapped (Or.inl ⟨userAnswerTrap answer,_,rfl,answer⟩) rfl
    | @userAnswered reply response next opened answer joined =>
      have answered : (a.next F (.load (.userReply reply))).user = some response := by
        simp [DetailsAnswers.next,opened,answer,Except.toOption]
      refine .ran (.loading ?_ read races) ⟨rfl,rfl⟩ rfl (by simp [networkSuccess])
      rw [answered]
      exact joined
    | @commentsAnswered reply next opened joined =>
      have answered : (a.next F (.load (.commentsReply reply))).comments =
          some (commentsAnswer F reply) := by
        simp [DetailsAnswers.next,opened]
      refine .ran (.loading ?_ read races) ⟨rfl,rfl⟩ rfl (by simp [networkSuccess])
      rw [answered]
      exact joined
    | @joined response next users lists first value joined =>
      have values : networkSuccess F (.details s) (.details (.load .notify)) =
          response.value.map (fun d => .details s.userId s.postId d.user d.comments) := by
        simp only [networkSuccess,load.join.users,load.join.lists,value]
      cases response with
      | success d =>
        refine .ran ?_ ⟨rfl,rfl⟩ ?_ ?_
        · simp only [List.append_nil,List.nil_append,completionsComplete,completionsIgnore]
          exact .loaded joined read races value.symm
        · simp [values,successWrites,NetworkSuccess.writes]
        · intro n found
          rw [values] at found
          cases Option.some.inj found
          simp [NetworkSuccess.response]
      | failure error =>
        have starts := readDetailsStarts F s.userId s.postId
        rw [← races.1] at starts
        nth_rewrite 2 [races.1] at starts
        rw [← races.2] at starts
        refine .ran (.reading joined value.symm rfl rfl starts) ⟨rfl,rfl⟩ ?_ ?_
        · simp [values,successWrites,writesOf]
        · simp [values]

theorem detailsReadStepped {F : Foundation Data} {a : DetailsAnswers} {s : RetrievePostDetails}
    {delivered : List (ResponseType PostDetails)} (agrees : DetailsAgrees F a s delivered)
    {e : ReadDetailsEvent}
    {block : Except Trap (Out Action RetrievePostDetails (ResponseType PostDetails))}
    (ok : s.step F (.read e) = some block) : DetailsStepped F a s delivered (.read e) block := by
  simp only [RetrievePostDetails.step,bind,Option.bind_eq_some_iff] at ok
  obtain ⟨r,reading,inner,stepped,last⟩ := ok
  cases Option.some.inj last
  cases agrees with
  | loading load read races => rw [read] at reading; cases reading
  | loaded load read races value => rw [read] at reading; cases reading
  | @reading r user comments ran load value read nodes reads =>
    cases Option.some.inj (read.symm.trans reading)
    have silent : networkSuccess F (.details s) (.details (.read e)) = none := by
      simp [networkSuccess]
    have kept := fun next out (same : inner = .ok (next,out)) =>
      readDetailsNodes (stepped.trans (congrArg some same))
    cases readDetailsStepped reads stepped with
    | userTrapped opened answer =>
      obtain ⟨cause,scalar⟩ := raceTrap opened answer
      exact .trapped (Or.inr ⟨cause,_,Or.inl rfl,scalar⟩) silent
    | commentsTrapped opened answer =>
      obtain ⟨cause,scalar⟩ := raceTrap opened answer
      exact .trapped (Or.inr ⟨cause,_,Or.inr rfl,scalar⟩) silent
    | @user e next response agreesNext =>
      refine .ran ?_ ⟨rfl,rfl⟩ (by simp [silent,successWrites,writesOf]) (by simp [silent])
      simp only [completionsNil,List.append_nil]
      cases ran with
      | false =>
        exact .reading (a := a.next F (.read (.user e))) (s := {s with read := some next}) load value rfl
          ((kept next _ rfl).trans nodes) agreesNext
      | true =>
        have answered := (joinRan reads.join).1
        have closed := answeredClosed reads.userAnswer answered
        have same : a.next F (.read (.user e)) = a := by simp only [DetailsAnswers.next,raceClosed closed]
        rw [raceClosed closed,answered,Bool.and_true] at agreesNext
        rw [same]
        exact .reading load value rfl ((kept next _ rfl).trans nodes) agreesNext
    | @comments e next response agreesNext =>
      refine .ran ?_ ⟨rfl,rfl⟩ (by simp [silent,successWrites,writesOf]) (by simp [silent])
      simp only [completionsNil,List.append_nil]
      cases ran with
      | false =>
        exact .reading (a := a.next F (.read (.comments e))) (s := {s with read := some next}) load value rfl
          ((kept next _ rfl).trans nodes) agreesNext
      | true =>
        have answered := (joinRan reads.join).2
        have closed := answeredClosed reads.commentsAnswer answered
        have same : a.next F (.read (.comments e)) = a := by
          simp only [DetailsAnswers.next,raceClosed closed]
        rw [raceClosed closed,answered,Bool.and_true] at agreesNext
        rw [same]
        exact .reading load value rfl ((kept next _ rfl).trans nodes) agreesNext
    | @joined response next users lists first joined agreesNext =>
      subst first
      have spec : RetrievePostDetails.databaseCompletion response = detailsSpec F a := by
        rw [databaseCompletionValue,detailsSpec,value,Option.none_or,joined,
          readValueAnswered reads.userAnswer,readValueAnswered reads.commentsAnswer]
      refine .ran ?_ ⟨rfl,rfl⟩ (by simp [silent,successWrites,writesOf]) (by simp [silent])
      simp only [completionsComplete,completionsNil,spec]
      exact .reading (a := a) (s := {s with read := some next}) load value rfl
        ((kept next _ rfl).trans nodes) agreesNext

theorem detailsStepped {F : Foundation Data} {a : DetailsAnswers} {s : RetrievePostDetails}
    {delivered : List (ResponseType PostDetails)} (agrees : DetailsAgrees F a s delivered)
    {e : DetailsEvent Data}
    {block : Except Trap (Out Action RetrievePostDetails (ResponseType PostDetails))}
    (ok : s.step F e = some block) : DetailsStepped F a s delivered e block := by
  cases e with
  | load e => exact detailsLoadStepped agrees ok
  | read e => exact detailsReadStepped agrees ok

theorem detailsDelivered {F : Foundation Data} {a : DetailsAnswers} {s : RetrievePostDetails}
    {delivered : List (ResponseType PostDetails)} (agrees : DetailsAgrees F a s delivered) :
    delivered = [] ∨ delivered = [detailsSpec F a] := by
  cases agrees with
  | loading _ _ _ => exact Or.inl rfl
  | loaded _ _ _ value => exact Or.inr (by simp [detailsSpec,value,orFailure])
  | @reading _ _ _ ran _ _ _ _ _ => cases ran <;> simp

theorem detailsSettled {F : Foundation Data} {a : DetailsAnswers} {s : RetrievePostDetails}
    {delivered : List (ResponseType PostDetails)} (agrees : DetailsAgrees F a s delivered)
    (loads : ∀ e, s.step F (.load e) = none) (userTimer : s.step F (.read (.user .timeout)) = none)
    (commentsTimer : s.step F (.read (.comments .timeout)) = none)
    (notify : s.step F (.read .notify) = none) : delivered = [detailsSpec F a] := by
  cases agrees with
  | loading load _ _ =>
    have idle : ∀ e, s.load.step F e = none := by
      intro e
      have waiting := loads e
      simp only [RetrievePostDetails.step,bind,Option.bind_eq_none_iff,reduceCtorEq,imp_false] at waiting
      exact Option.eq_none_iff_forall_ne_some.mpr waiting
    cases loadSettled load idle
  | loaded _ _ _ value => simp [detailsSpec,value,orFailure]
  | @reading r _ _ ran _ _ read _ reads =>
    simp only [RetrievePostDetails.step,read,bind,Option.bind_some,Option.bind_eq_none_iff,reduceCtorEq,
      imp_false] at userTimer commentsTimer notify
    have finished := readDetailsSettled reads (Option.eq_none_iff_forall_ne_some.mpr userTimer)
      (Option.eq_none_iff_forall_ne_some.mpr commentsTimer)
      (Option.eq_none_iff_forall_ne_some.mpr notify)
    rw [finished,if_pos rfl]

/- Once a read has been decided, the network half has failed for good. -/
theorem detailsReadSpec {F : Foundation Data} {a : DetailsAnswers} {s : RetrievePostDetails}
    {delivered : List (ResponseType PostDetails)} (agrees : DetailsAgrees F a s delivered)
    (decided : a.userRace ≠ .open) :
    detailsSpec F a = orFailure (both (readValue F User.decode a.userRace)
      (readValue F (decodeArray Comment.decode) a.commentsRace)) .unableToReadPostDetailsData := by
  cases agrees with
  | loading _ _ races => exact absurd races.1 decided
  | loaded _ _ races _ => exact absurd races.1 decided
  | reading _ value _ _ _ => rw [detailsSpec,value,Option.none_or]

inductive PostsAgrees (F : Foundation Data) (a : PostsAnswers) :
    RetrieveAllPosts → List (ResponseType (List Post)) → Prop where
  | loading {s} (task : s.task.outstanding = true) (network : a.network = none) (read : s.read = none)
      (race : a.race = .open) : PostsAgrees F a s []
  | loaded {s list} (task : s.task.outstanding = false) (read : s.read = none) (race : a.race = .open)
      (value : received a.network = some list) : PostsAgrees F a s [.success list]
  | reading {s r} (response : Option (ResponseType (List Post))) (task : s.task.outstanding = false)
      (value : received a.network = none) (read : s.read = some r)
      (node : r.node = postsConfiguration.node) (agrees : ReadAgrees a.race r)
      (answer : raceAnswer F (decodeArray Post.decode) a.race = response.map .ok) :
      PostsAgrees F a s (if response.isSome then [postsSpec F a] else [])

inductive PostsStepped (F : Foundation Data) (a : PostsAnswers) (s : RetrieveAllPosts)
    (delivered : List (ResponseType (List Post))) (e : PostsEvent Data) :
    Except Trap (Out Action RetrieveAllPosts (ResponseType (List Post))) → Prop where
  | trapped {t} (cause : t = .invalidTopLevelObject ∧ ∃ r, e = .read r ∧ ScalarSnapshot r)
      (silent : networkSuccess F (.posts s) (.posts e) = none) :
      PostsStepped F a s delivered e (.error t)
  | ran {next out} (agrees : PostsAgrees F (a.next F e) next (delivered ++ completions out))
      (writes : writesOf (actions out) = successWrites F (networkSuccess F (.posts s) (.posts e)))
      (success : ∀ n, networkSuccess F (.posts s) (.posts e) = some n →
        (completions out).map .posts = [n.response]) :
      PostsStepped F a s delivered e (.ok (next,out))

theorem postsStarts (F : Foundation Data) :
    ∃ s out, retrieveAllPosts F = .ok (s,out) ∧ completions out = [] ∧ writesOf (actions out) = [] ∧
      PostsAgrees F (.initial F) s [] := by
  rcases requestStarts F Constants.postsRoute none
    (fun response => .ok (loadPostsCompletion F response)) (fun _ => rfl)
    with ⟨asked,task,outstanding,starts⟩ | ⟨asked,task,outstanding,starts⟩
  · refine ⟨⟨task,none⟩,[.act (.networkActivityIndicator true)],?_,rfl,rfl,.loading outstanding asked rfl rfl⟩
    simp only [retrieveAllPosts,loadPosts,starts,bind,Except.bind,handle]
  · refine ⟨⟨task,some readPosts⟩,[],?_,rfl,rfl,?_⟩
    · simp only [retrieveAllPosts,loadPosts,starts,bind,Except.bind,handle,
        RetrieveAllPosts.networkCompletion,List.append_nil]
    · exact .reading none outstanding (by simp [PostsAnswers.initial,asked,received]) rfl
        rfl (readStarts _) rfl

theorem postsLoadStepped {F : Foundation Data} {a : PostsAnswers} {s : RetrieveAllPosts}
    {delivered : List (ResponseType (List Post))} (agrees : PostsAgrees F a s delivered)
    {reply : Reply Data}
    {block : Except Trap (Out Action RetrieveAllPosts (ResponseType (List Post)))}
    (ok : s.step F (.reply reply) = some block) : PostsStepped F a s delivered (.reply reply) block := by
  simp only [RetrieveAllPosts.step,bind,Option.bind_eq_some_iff] at ok
  obtain ⟨inner,replied,last⟩ := ok
  obtain ⟨outstanding,rfl⟩ := taskReplySource replied
  cases Option.some.inj last
  cases agrees with
  | loaded task _ _ _ => rw [outstanding] at task; cases task
  | reading _ task _ _ _ _ _ => rw [outstanding] at task; cases task
  | loading task network read race =>
    have answered : (a.next F (.reply reply)).network = some (postsAnswer F reply) := by
      simp [PostsAnswers.next,network]
    have values : networkSuccess F (.posts s) (.posts (.reply reply)) =
        (postsAnswer F reply).value.map .posts := rfl
    simp only [Except.map,Except.bind,handle,bind]
    change PostsStepped F a s [] _ (Except.bind (Except.bind (RetrieveAllPosts.networkCompletion F _
      (postsAnswer F reply)) _) _)
    cases response : postsAnswer F reply with
    | success list =>
      rw [response] at values answered
      simp only [RetrieveAllPosts.networkCompletion,Except.bind]
      refine .ran ?_ ?_ ?_
      · simp only [List.append_nil,List.nil_append,completionsComplete,completionsIgnore,completionsAct]
        exact .loaded rfl read race (by simp [answered,received])
      · simp [values,successWrites,NetworkSuccess.writes,writesOf]
      · intro n found
        rw [values] at found
        cases Option.some.inj found
        simp [NetworkSuccess.response]
    | failure error =>
      rw [response] at values answered
      simp only [RetrieveAllPosts.networkCompletion,Except.bind]
      have starts := readStarts postsConfiguration
      rw [← race] at starts
      refine .ran ?_ ?_ ?_
      · exact .reading (a := a.next F (.reply reply)) none rfl (by simp [answered,received])
          rfl rfl starts (by simp only [PostsAnswers.next,race]; rfl)
      · simp [values,successWrites,writesOf]
      · simp [values]

theorem postsReadStepped {F : Foundation Data} {a : PostsAnswers} {s : RetrieveAllPosts}
    {delivered : List (ResponseType (List Post))} (agrees : PostsAgrees F a s delivered)
    {e : ReadEvent}
    {block : Except Trap (Out Action RetrieveAllPosts (ResponseType (List Post)))}
    (ok : s.step F (.read e) = some block) : PostsStepped F a s delivered (.read e) block := by
  simp only [RetrieveAllPosts.step,bind,Option.bind_eq_some_iff] at ok
  obtain ⟨r,reading,inner,stepped,last⟩ := ok
  cases Option.some.inj last
  have silent : networkSuccess F (.posts s) (.posts (.read e)) = none := rfl
  cases agrees with
  | loading task network read race => rw [read] at reading; cases reading
  | loaded task read race value => rw [read] at reading; cases reading
  | @reading r response task value read node reads answer =>
    cases Option.some.inj (read.symm.trans reading)
    cases readAnswered reads stepped with
    | trapped opened answer =>
      obtain ⟨cause,scalar⟩ := raceTrap opened answer
      exact .trapped ⟨cause,_,rfl,scalar⟩ silent
    | @decided decision next opened decided agreesNext =>
      cases (openUnanswered answer).mp opened
      have answer : raceAnswer F (decodeArray Post.decode) (a.race.next e) = (some decision).map .ok := decided
      have spec : RetrieveAllPosts.databaseCompletion decision = postsSpec F (a.next F (.read e)) := by
        have values : readValue F (decodeArray Post.decode) (a.race.next e) = decision.value :=
          readValueAnswered answer
        simp only [postsSpec,PostsAnswers.next,value,Option.none_or,values]
        cases decision <;> rfl
      refine .ran ?_ (by simp [silent,successWrites,writesOf]) (by simp [silent])
      simp only [completionsComplete,completionsNil,spec]
      exact .reading (a := a.next F (.read e)) (s := {s with read := some next})
        (some decision) task value rfl ((readAnswerNode stepped).trans node) agreesNext decided
    | @ignored next closed same agreesNext =>
      have unchanged : a.next F (.read e) = a := by simp only [PostsAnswers.next,same]
      refine .ran ?_ (by simp [silent,successWrites,writesOf]) (by simp [silent])
      rw [unchanged,completionsNil,List.append_nil]
      exact .reading (s := {s with read := some next}) response task value rfl
        ((readAnswerNode stepped).trans node) agreesNext answer

theorem postsStepped {F : Foundation Data} {a : PostsAnswers} {s : RetrieveAllPosts}
    {delivered : List (ResponseType (List Post))} (agrees : PostsAgrees F a s delivered)
    {e : PostsEvent Data}
    {block : Except Trap (Out Action RetrieveAllPosts (ResponseType (List Post)))}
    (ok : s.step F e = some block) : PostsStepped F a s delivered e block := by
  cases e with
  | reply reply => exact postsLoadStepped agrees ok
  | read e => exact postsReadStepped agrees ok

theorem postsDelivered {F : Foundation Data} {a : PostsAnswers} {s : RetrieveAllPosts}
    {delivered : List (ResponseType (List Post))} (agrees : PostsAgrees F a s delivered) :
    delivered = [] ∨ delivered = [postsSpec F a] := by
  cases agrees with
  | loading _ _ _ _ => exact Or.inl rfl
  | loaded _ _ _ value => exact Or.inr (by simp [postsSpec,value,orFailure])
  | @reading _ response _ _ _ _ _ _ => cases response <;> simp

theorem postsSettled {F : Foundation Data} {a : PostsAnswers} {s : RetrieveAllPosts}
    {delivered : List (ResponseType (List Post))} (agrees : PostsAgrees F a s delivered)
    (reply : s.step F (.reply ⟨none,none⟩) = none) (timer : s.step F (.read .timeout) = none) :
    delivered = [postsSpec F a] := by
  cases agrees with
  | loading task _ _ _ =>
    simp only [RetrieveAllPosts.step,bind,Option.bind_eq_none_iff,reduceCtorEq,imp_false] at reply
    have idle := taskReplyIdle (Option.eq_none_iff_forall_ne_some.mpr reply)
    rw [task] at idle
    cases idle
  | loaded _ _ _ value => simp [postsSpec,value,orFailure]
  | @reading r response _ _ read _ reads answer =>
    simp only [RetrieveAllPosts.step,read,bind,Option.bind_some,Option.bind_eq_none_iff,reduceCtorEq,
      imp_false] at timer
    have answered := settledAnswered reads answer (Option.eq_none_iff_forall_ne_some.mpr timer)
    cases response with
    | none => cases answered
    | some _ => rfl

theorem postsReadSpec {F : Foundation Data} {a : PostsAnswers} {s : RetrieveAllPosts}
    {delivered : List (ResponseType (List Post))} (agrees : PostsAgrees F a s delivered)
    (decided : a.race ≠ .open) :
    postsSpec F a = orFailure (readValue F (decodeArray Post.decode) a.race) .unableToReadAllPostsData := by
  cases agrees with
  | loading _ _ _ race => exact absurd race decided
  | loaded _ _ race _ => exact absurd race decided
  | reading _ _ value _ _ _ _ => rw [postsSpec,value,Option.none_or]

end BabylonHealthDemo
