import BabylonHealthDemo.ServerQueries

/-! The database reads on their own, under any node values and any order of snapshots
and timeouts. A snapshot that comes in time decides its read: it succeeds when the
node has the wanted shape and fails otherwise, except on a number, a boolean or a
string. The conversion of such an object raises an exception that nobody catches. -/
namespace BabylonHealthDemo
open JsonTree PathStore Callbacks

def postsRead (F : Foundation Data) : Machine Unit Read ReadEvent Action (ResponseType (List Post)) Trap :=
  ⟨fun _ => .ok (readPosts,[]),readPostsStep F⟩

def postDetailsReads (F : Foundation Data) :
    Machine (Int64 × Int64) ReadPostDetails ReadDetailsEvent Action (ResponseType PostDetails) Trap :=
  ⟨fun ids => .ok (readPostDetails ids.1 ids.2,[]),ReadPostDetails.step F⟩

def raceOf (events : List ReadEvent) : Race := events.foldl Race.next .open

def userReads (events : List ReadDetailsEvent) : List ReadEvent := events.filterMap fun
  | .user e => some e
  | _ => none

def commentsReads (events : List ReadDetailsEvent) : List ReadEvent := events.filterMap fun
  | .comments e => some e
  | _ => none

def Native (events : List ReadEvent) : Prop :=
  ∀ snapshot, .snapshot snapshot ∈ events → ∃ node, snapshot = .of node

def NoScalar (events : List ReadEvent) : Prop :=
  ∀ v, raceOf events = .answered (.of (some v)) → v.isContainer = true ∨ v.isNull = true

theorem raceSnoc (events : List ReadEvent) (e : ReadEvent) :
    raceOf (events ++ [e]) = (raceOf events).next e := by
  simp [raceOf,List.foldl_append]

theorem answeredSource {events : List ReadEvent} {snapshot : DataSnapshot}
    (won : raceOf events = .answered snapshot) : .snapshot snapshot ∈ events := by
  induction events using List.reverseRecOn with
  | nil => cases won
  | append_singleton events e ih =>
    rw [raceSnoc] at won
    cases before : raceOf events with
    | «open» =>
      rw [before] at won
      cases e with
      | snapshot s => cases won; simp
      | timeout => cases won
    | _ =>
      rw [raceClosed (by rw [before]; exact nofun)] at won
      exact List.mem_append_left _ (ih won)

theorem readShape {F : Foundation Data} (lawful : F.Lawful) {decode : Json → Option α}
    (respects : Respects decode) (containers : ∀ v x, decode v = some x → v.isContainer = true)
    {events : List ReadEvent} (native : Native events) (x : α) :
    readValue F decode (raceOf events) = some x ↔
      ∃ v, raceOf events = .answered (.of (some v)) ∧ decode v = some x := by
  constructor
  · intro value
    cases won : raceOf events with
    | «open» => rw [won] at value; cases value
    | timedOut => rw [won] at value; cases value
    | answered snapshot =>
      obtain ⟨node,rfl⟩ := native snapshot (answeredSource won)
      rw [won] at value
      obtain ⟨v,rfl,decoded⟩ := readSource value
      refine ⟨v,rfl,?_⟩
      cases container : v.isContainer with
      | true =>
        rw [decodeObjectContainer lawful respects container] at decoded
        exact Except.ok.inj decoded
      | false =>
        rw [decodeObjectScalar container] at decoded
        cases decoded
  · rintro ⟨v,won,decoded⟩
    rw [won]
    have container := containers v x decoded
    have present : v.isNull = false := by
      cases v <;> first | rfl | cases container
    simp only [readValue,raceAnswer,Race.response,snapshotResponse,DataSnapshot.of,DataSnapshot.exists,
      present,Bool.not_false,if_true,Option.map_some,readCompletion,decodeObjectContainer lawful respects
      container,decoded,bind,Except.bind,valueSuccess]

theorem scalarDecides {F : Foundation Data} {decode : Json → Option α} {events : List ReadEvent}
    {e : ReadEvent} {t : Trap} (native : Native (events ++ [e])) (opened : raceOf events = .open)
    (trap : raceAnswer F decode ((raceOf events).next e) = some (.error t)) : ¬ NoScalar (events ++ [e]) := by
  intro noScalar
  obtain ⟨_,snapshot,object,rfl,value,scalar⟩ := raceTrap opened trap
  obtain ⟨node,rfl⟩ := native snapshot (by simp)
  cases node with
  | none => cases value
  | some v =>
    have decided : raceOf (events ++ [.snapshot (.of (some v))]) = .answered (.of (some v)) := by
      rw [raceSnoc,opened]
      rfl
    rcases noScalar v decided with container | null
    · have present : v.isNull = false := by cases v <;> first | rfl | cases container
      simp only [DataSnapshot.of,snapshotResponse,DataSnapshot.exists,present,Bool.not_false,if_true,
        ResponseType.success.injEq,DatabaseResponse.mk.injEq] at value
      rw [← value,container] at scalar
      cases scalar
    · simp [DataSnapshot.of,snapshotResponse,DataSnapshot.exists,null] at value

theorem answeredNoScalar {F : Foundation Data} {decode : Json → Option α} {events : List ReadEvent}
    {response : Option (ResponseType α)}
    (answer : raceAnswer F decode (raceOf events) = response.map .ok) : NoScalar events := by
  intro v won
  cases container : v.isContainer with
  | true => exact Or.inl rfl
  | false =>
    right
    cases null : v.isNull with
    | true => rfl
    | false =>
      rw [won] at answer
      simp only [raceAnswer,Race.response,snapshotResponse,DataSnapshot.of,DataSnapshot.exists,null,
        Bool.not_false,if_true,Option.map_some,readCompletion,decodeObjectScalar container,bind,
        Except.bind] at answer
      cases response <;> cases answer

theorem arrayContainer {decode : Json → Option α} (v : Json) (xs : List α)
    (decoded : decodeArray decode v = some xs) : v.isContainer = true := by
  obtain ⟨elements,rfl,_⟩ := decodeArraySource decoded
  rfl

theorem userContainer (v : Json) (user : User) (decoded : User.decode v = some user) :
    v.isContainer = true := by
  cases v with
  | array _ => rfl
  | dictionary _ => rfl
  | _ => simp [User.decode,decodeField,Json.field] at decoded

def PostsReadAgrees (F : Foundation Data) (events : List ReadEvent) (r : Read)
    (delivered : List (ResponseType (List Post))) : Prop :=
  ∃ response : Option (ResponseType (List Post)), ReadAgrees (raceOf events) r ∧
    raceAnswer F (decodeArray Post.decode) (raceOf events) = response.map .ok ∧
    delivered = response.toList

theorem postsReadRun {F : Foundation Data} {events : List ReadEvent}
    {i : Instance Unit Read (ResponseType (List Post))}
    (ran : (postsRead F).exec () events = some (.ok i)) : PostsReadAgrees F events i.state i.delivered := by
  have initial : ∀ i, (postsRead F).spawn () = .ok i → PostsReadAgrees F [] i.state i.delivered := by
    intro i spawned
    cases spawned
    exact ⟨none,readStarts _,rfl,rfl⟩
  refine (Machine.execInvariant (fun events i => PostsReadAgrees F events i.state i.delivered)
    initial ?_ ran).1
  rintro events i e next ⟨response,reads,answer,delivered⟩ _ advanced
  obtain ⟨s,out,stepped,rfl⟩ := Machine.advanceOk advanced
  cases readAnswered reads stepped with
  | @decided decision next opened decided agreesNext =>
    cases (openUnanswered answer).mp opened
    rw [← raceSnoc] at decided agreesNext
    exact ⟨some decision,agreesNext,decided,by simp [delivered]⟩
  | @ignored next closed same agreesNext =>
    rw [← same,← raceSnoc] at agreesNext answer
    exact ⟨response,agreesNext,answer,by simp [delivered]⟩

theorem answeredKept {F : Foundation Data} {decode : Json → Option α} {race : Race} {e : ReadEvent}
    {before after : Option (ResponseType α)} (answer : raceAnswer F decode race = before.map .ok)
    (next : raceAnswer F decode (race.next e) = after.map .ok) (answered : before.isSome = true) :
    race.next e = race ∧ after = before := by
  have same := raceClosed (answeredClosed answer answered) e
  rw [same] at next
  exact ⟨same,Option.map_injective (fun _ _ => Except.ok.inj) (next.symm.trans answer)⟩

structure ReadsAgree (F : Foundation Data) (events : List ReadDetailsEvent)
    (user : Option (ResponseType User)) (comments : Option (ResponseType (List Comment))) (ran : Bool)
    (s : ReadPostDetails) (delivered : List (ResponseType PostDetails)) : Prop where
  reads : ReadDetailsAgrees F (raceOf (userReads events)) (raceOf (commentsReads events)) user comments
    ran s
  waiting : ran = false → delivered = []
  joined : ran = true → ∃ response, delivered = [response] ∧
    response.value = both (received user) (received comments)

theorem readsRun {F : Foundation Data} {ids : Int64 × Int64} {events : List ReadDetailsEvent}
    {i : Instance (Int64 × Int64) ReadPostDetails (ResponseType PostDetails)}
    (ran : (postDetailsReads F).exec ids events = some (.ok i)) :
    ∃ user comments finished, ReadsAgree F events user comments finished i.state i.delivered := by
  have initial : ∀ i, (postDetailsReads F).spawn ids = .ok i →
      ∃ user comments finished, ReadsAgree F [] user comments finished i.state i.delivered := by
    intro i spawned
    cases spawned
    exact ⟨none,none,false,readDetailsStarts F ids.1 ids.2,fun _ => rfl,nofun⟩
  refine (Machine.execInvariant (fun events i => ∃ user comments finished,
    ReadsAgree F events user comments finished i.state i.delivered) initial ?_ ran).1
  rintro events i e next ⟨user,comments,finished,agrees⟩ _ advanced
  obtain ⟨s,out,stepped,rfl⟩ := Machine.advanceOk advanced
  cases readDetailsStepped agrees.reads stepped with
  | @user e next response readsNext =>
    have users : raceOf (userReads (events ++ [.user e])) = (raceOf (userReads events)).next e := by
      simp [userReads,raceSnoc]
    have lists : commentsReads (events ++ [.user e]) = commentsReads events := by simp [commentsReads]
    cases finished with
    | false =>
      refine ⟨response,comments,false,?_,fun _ => by simp [agrees.waiting rfl],nofun⟩
      rw [users,lists]
      exact readsNext
    | true =>
      have answered := (joinRan agrees.reads.join).1
      obtain ⟨same,rfl⟩ := answeredKept agrees.reads.userAnswer readsNext.userAnswer answered
      rw [same] at users readsNext
      rw [answered,Bool.and_true] at readsNext
      refine ⟨response,comments,true,?_,nofun,fun _ => by simpa using agrees.joined rfl⟩
      rw [users,lists]
      exact readsNext
  | @comments e next response readsNext =>
    have lists : raceOf (commentsReads (events ++ [.comments e])) =
        (raceOf (commentsReads events)).next e := by
      simp [commentsReads,raceSnoc]
    have users : userReads (events ++ [.comments e]) = userReads events := by simp [userReads]
    cases finished with
    | false =>
      refine ⟨user,response,false,?_,fun _ => by simp [agrees.waiting rfl],nofun⟩
      rw [users,lists]
      exact readsNext
    | true =>
      have answered := (joinRan agrees.reads.join).2
      obtain ⟨same,rfl⟩ := answeredKept agrees.reads.commentsAnswer readsNext.commentsAnswer answered
      rw [same] at lists readsNext
      rw [answered,Bool.and_true] at readsNext
      refine ⟨user,response,true,?_,nofun,fun _ => by simpa using agrees.joined rfl⟩
      rw [users,lists]
      exact readsNext
  | @joined response next users lists first value readsNext =>
    have sameUsers : userReads (events ++ [.notify]) = userReads events := by simp [userReads]
    have sameLists : commentsReads (events ++ [.notify]) = commentsReads events := by simp [commentsReads]
    refine ⟨user,comments,true,?_,nofun,fun _ => ⟨response,by simp [agrees.waiting first],value⟩⟩
    rw [sameUsers,sameLists]
    exact readsNext

theorem postsReadTrap {F : Foundation Data} {events : List ReadEvent} {t : Trap} (native : Native events)
    (ran : (postsRead F).exec () events = some (.error t)) : ¬ NoScalar events := by
  rcases Machine.execTrap ran with started | ⟨before,i,e,rfl,ranBefore,stepped⟩
  · cases started
  · obtain ⟨response,reads,_,_⟩ := postsReadRun ranBefore
    cases readAnswered reads stepped with
    | trapped opened trap => exact scalarDecides native opened trap

theorem detailsReadTrap {F : Foundation Data} {ids : Int64 × Int64} {events : List ReadDetailsEvent}
    {t : Trap} (userNative : Native (userReads events)) (commentsNative : Native (commentsReads events))
    (ran : (postDetailsReads F).exec ids events = some (.error t)) :
    ¬ NoScalar (userReads events) ∨ ¬ NoScalar (commentsReads events) := by
  rcases Machine.execTrap ran with started | ⟨before,i,e,rfl,ranBefore,stepped⟩
  · cases started
  · obtain ⟨_,_,_,agrees⟩ := readsRun ranBefore
    cases readDetailsStepped agrees.reads stepped with
    | @userTrapped e _ opened trap =>
      have users : userReads (before ++ [.user e]) = userReads before ++ [e] := by simp [userReads]
      rw [users] at userNative ⊢
      exact Or.inl (scalarDecides userNative opened trap)
    | @commentsTrapped e _ opened trap =>
      have lists : commentsReads (before ++ [.comments e]) = commentsReads before ++ [e] := by
        simp [commentsReads]
      rw [lists] at commentsNative ⊢
      exact Or.inr (scalarDecides commentsNative opened trap)

theorem postsReadSettled {F : Foundation Data} (lawful : F.Lawful) {events : List ReadEvent}
    (native : Native events) {i : Instance Unit Read (ResponseType (List Post))}
    (ran : (postsRead F).exec () events = some (.ok i)) (settled : readPostsStep F i.state .timeout = none) :
    ∃ response, i.delivered = [response] ∧ ∀ list, response = .success list ↔
      ∃ v, raceOf events = .answered (.of (some v)) ∧ decodeArray Post.decode v = some list := by
  obtain ⟨answered,reads,answer,delivered⟩ := postsReadRun ran
  have decided := settledAnswered reads answer settled
  cases answered with
  | none => cases decided
  | some response =>
    refine ⟨response,delivered,fun list => ?_⟩
    rw [← readShape lawful (respectsArray respectsPost) arrayContainer native list,← valueSome]
    simp [readValue,answer]

theorem detailsReadSettled {F : Foundation Data} (lawful : F.Lawful) {ids : Int64 × Int64}
    {events : List ReadDetailsEvent} (userNative : Native (userReads events))
    (commentsNative : Native (commentsReads events))
    {i : Instance (Int64 × Int64) ReadPostDetails (ResponseType PostDetails)}
    (ran : (postDetailsReads F).exec ids events = some (.ok i))
    (userTimer : i.state.step F (.user .timeout) = none)
    (commentsTimer : i.state.step F (.comments .timeout) = none) (notify : i.state.step F .notify = none) :
    ∃ response, i.delivered = [response] ∧ ∀ d, response = .success d ↔
      (∃ v, raceOf (userReads events) = .answered (.of (some v)) ∧ User.decode v = some d.user) ∧
      ∃ v, raceOf (commentsReads events) = .answered (.of (some v)) ∧
        decodeArray Comment.decode v = some d.comments := by
  obtain ⟨user,comments,finished,agrees⟩ := readsRun ran
  obtain ⟨response,delivered,value⟩ :=
    agrees.joined (readDetailsSettled agrees.reads userTimer commentsTimer notify)
  refine ⟨response,delivered,fun d => ?_⟩
  rw [← readShape lawful respectsUser userContainer userNative d.user,
    ← readShape lawful (respectsArray respectsComment) arrayContainer commentsNative d.comments,
    readValueAnswered agrees.reads.userAnswer,readValueAnswered agrees.reads.commentsAnswer,
    ← valueSome,value,bothSome]

theorem cachedReadsSurvive {F : Foundation Data} (lawful : F.Lawful) {postsEvents : List ReadEvent}
    (postsNative : Native postsEvents) {postsResult : Except Trap (Instance Unit Read (ResponseType (List Post)))}
    (postsRan : (postsRead F).exec () postsEvents = some postsResult)
    {userId postId : Int64} {events : List ReadDetailsEvent} (userNative : Native (userReads events))
    (commentsNative : Native (commentsReads events))
    {result : Except Trap (Instance (Int64 × Int64) ReadPostDetails (ResponseType PostDetails))}
    (ran : (postDetailsReads F).exec (userId,postId) events = some result) :
    ((∃ i, postsResult = .ok i ∧ (readPostsStep F i.state .timeout = none →
        ∃ response, i.delivered = [response] ∧ ∀ list, response = .success list ↔
          ∃ v, raceOf postsEvents = .answered (.of (some v)) ∧ decodeArray Post.decode v = some list)) ↔
      NoScalar postsEvents) ∧
    ((∃ i, result = .ok i ∧ (i.state.step F (.user .timeout) = none →
        i.state.step F (.comments .timeout) = none → i.state.step F .notify = none →
        ∃ response, i.delivered = [response] ∧ ∀ d, response = .success d ↔
          (∃ v, raceOf (userReads events) = .answered (.of (some v)) ∧ User.decode v = some d.user) ∧
          ∃ v, raceOf (commentsReads events) = .answered (.of (some v)) ∧
            decodeArray Comment.decode v = some d.comments)) ↔
      NoScalar (userReads events) ∧ NoScalar (commentsReads events)) := by
  constructor
  · cases postsResult with
    | error t => exact iff_of_false (fun ⟨_,same,_⟩ => nomatch same) (postsReadTrap postsNative postsRan)
    | ok i =>
      obtain ⟨_,_,answer,_⟩ := postsReadRun postsRan
      exact iff_of_true ⟨i,rfl,postsReadSettled lawful postsNative postsRan⟩ (answeredNoScalar answer)
  · cases result with
    | error t =>
      refine iff_of_false (fun ⟨_,same,_⟩ => nomatch same) (fun noScalar => ?_)
      rcases detailsReadTrap userNative commentsNative ran with user | comments
      · exact user noScalar.1
      · exact comments noScalar.2
    | ok i =>
      obtain ⟨_,_,_,agrees⟩ := readsRun ran
      exact iff_of_true ⟨i,rfl,detailsReadSettled lawful userNative commentsNative ran⟩
        ⟨answeredNoScalar agrees.reads.userAnswer,answeredNoScalar agrees.reads.commentsAnswer⟩

def held (v : Json) : ReadEvent := .snapshot (.of (some v))

theorem heldContainer {v : Json} (container : v.isContainer = true) (later : List ReadEvent)
    (closed : later.foldl Race.next (.answered (.of (some v))) = .answered (.of (some v))) :
    NoScalar (held v :: later) := by
  intro w won
  have same : v.isNull = w.isNull ∧ v = w := by
    rw [raceOf,List.foldl_cons] at won
    simpa [DataSnapshot.of] using closed.symm.trans won
  exact Or.inl (same.2 ▸ container)

/- The comments come after their timeout, and are a string besides. -/
def lateComments : List ReadDetailsEvent :=
  [.user (held (sampleUser 1).encode),.comments .timeout,.user .timeout,.comments (held (.string "late")),
    .notify]

theorem lateCommentsSurvive : ∃ i, (postDetailsReads plainFoundation).exec (1,2) lateComments = some (.ok i) ∧
    i.delivered = [.failure (.apiDatabase .databaseReadError)] ∧
    NoScalar [held (encodeArray Post.encode [samplePost 2])] ∧
    ∃ response, i.delivered = [response] ∧ ∀ d, response ≠ .success d := by
  have ran : (postDetailsReads plainFoundation).exec (1,2) lateComments = some (.ok _) := rfl
  have container : NoScalar [held (encodeArray Post.encode [samplePost 2])] := heldContainer rfl [] rfl
  have survives := (cachedReadsSurvive plainLawful (fun snapshot member => by
      simp [held] at member
      exact ⟨_,member⟩)
    (show (postsRead plainFoundation).exec () [held (encodeArray Post.encode [samplePost 2])] = some _ from rfl)
    (fun snapshot member => by
      simp [userReads,lateComments,held] at member
      exact ⟨_,member⟩)
    (fun snapshot member => by
      simp [commentsReads,lateComments,held] at member
      exact ⟨_,member⟩)
    ran).2.mpr ⟨heldContainer rfl [.timeout] rfl,fun v won => nomatch won⟩
  obtain ⟨j,same,settled⟩ := survives
  cases same
  obtain ⟨response,delivered,value⟩ := settled rfl rfl rfl
  refine ⟨_,ran,by rfl,container,response,delivered,fun d success => ?_⟩
  obtain ⟨_,v,won,_⟩ := (value d).mp success
  cases won

theorem scalarsCrash :
    (postsRead plainFoundation).exec () [held (.int 5)] = some (.error .invalidTopLevelObject) ∧
    (postDetailsReads plainFoundation).exec (1,2) [.comments (held (.string "none"))] =
      some (.error .invalidTopLevelObject) ∧ Native [held (.int 5)] :=
  ⟨rfl,rfl,fun snapshot member => ⟨_,by simpa [held] using member⟩⟩

end BabylonHealthDemo
