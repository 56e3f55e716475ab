import BabylonHealthDemo.SequentialSpec

/-! Every call of the data provider in every run of the main queue. One call agrees
with its specification after any of its blocks; a run interleaves the blocks of
any number of calls, and each call in it is the call run alone. A trap comes from
one of two blocks only, and never from the join of two responses. -/
namespace BabylonHealthDemo
open JsonTree PathStore Callbacks

abbrev ProviderEvent (Data : Type) := PoolEvent CallArgs (CallEvent Data)
abbrev Provider := Pool CallArgs CallState Action CallResponse Trap

inductive CallAnswers where
  | posts (answers : PostsAnswers)
  | details (answers : DetailsAnswers)

def CallAnswers.initial (F : Foundation Data) : CallArgs → CallAnswers
  | .retrieveAllPosts => .posts (.initial F)
  | .retrievePostDetails userId postId => .details (.initial F userId postId)

def CallAnswers.next (F : Foundation Data) : CallAnswers → CallEvent Data → CallAnswers
  | .posts a,.posts e => .posts (a.next F e)
  | .details a,.details e => .details (a.next F e)
  | a,_ => a

def callAnswers (F : Foundation Data) (args : CallArgs) (events : List (CallEvent Data)) : CallAnswers :=
  events.foldl (CallAnswers.next F) (.initial F args)

def CallAnswers.spec (F : Foundation Data) : CallAnswers → CallResponse
  | .posts a => .posts (postsSpec F a)
  | .details a => .details (detailsSpec F a)

inductive CallAgrees (F : Foundation Data) :
    CallArgs → CallAnswers → CallState → List CallResponse → Prop where
  | posts {a s delivered} (agrees : PostsAgrees F a s delivered) :
      CallAgrees F .retrieveAllPosts (.posts a) (.posts s) (delivered.map .posts)
  | details {a s delivered} (agrees : DetailsAgrees F a s delivered) :
      CallAgrees F (.retrievePostDetails s.userId s.postId) (.details a) (.details s)
        (delivered.map .details)

structure PostsOutcomes (F : Foundation Data) (events : List (CallEvent Data)) (a : PostsAnswers) : Prop where
  network : received a.network = networkValue F (decodeArray Post.decode) (events.findSome? postsReply)
  first : a.network = none → events.findSome? postsReply = none
  race : a.race = raceOutcome (events.findSome? (readBlock .posts))

structure DetailsOutcomes (F : Foundation Data) (events : List (CallEvent Data)) (a : DetailsAnswers) : Prop where
  user : received a.user =
    (networkValue F (decodeArray User.decode) (events.findSome? userReply)).bind List.head?
  userFirst : a.user = none → events.findSome? userReply = none
  comments : received a.comments =
    networkValue F (decodeArray Comment.decode) (events.findSome? commentsReply)
  commentsFirst : a.comments = none → events.findSome? commentsReply = none
  userRace : a.userRace = raceOutcome (events.findSome? (readBlock .user))
  commentsRace : a.commentsRace = raceOutcome (events.findSome? (readBlock .comments))

def Outcomes (F : Foundation Data) (events : List (CallEvent Data)) : CallAnswers → Prop
  | .posts a => PostsOutcomes F events a
  | .details a => DetailsOutcomes F events a

theorem outcomesSpec {F : Foundation Data} {events : List (CallEvent Data)} {args : CallArgs} {a : CallAnswers}
    {s : CallState} {delivered : List CallResponse} (agrees : CallAgrees F args a s delivered)
    (outcomes : Outcomes F events a) : a.spec F = sequentialSpec F args events := by
  cases agrees with
  | posts _ =>
    simp only [CallAnswers.spec,postsSpec,sequentialSpec,outcomes.network,outcomes.race,readValueOutcome]
  | details _ =>
    simp only [CallAnswers.spec,detailsSpec,sequentialSpec,outcomes.user,outcomes.comments,outcomes.userRace,
      outcomes.commentsRace,readValueOutcome]

def readEvent : ReadName → ReadEvent → CallEvent Data
  | .posts,e => .posts (.read e)
  | .user,e => .details (.read (.user e))
  | .comments,e => .details (.read (.comments e))

def CallState.read : CallState → ReadName → Option Read
  | .posts s,.posts => s.read
  | .details s,.user => s.read.map ReadPostDetails.userRead
  | .details s,.comments => s.read.map ReadPostDetails.commentsRead
  | _,_ => none

def CallAnswers.race : CallAnswers → ReadName → Race
  | .posts a,.posts => a.race
  | .details a,.user => a.userRace
  | .details a,.comments => a.commentsRace
  | _,_ => .open

def CallArgs.node : CallArgs → ReadName → Option Path
  | .retrieveAllPosts,.posts => some postsConfiguration.node
  | .retrievePostDetails userId _,.user => some (userConfiguration userId).node
  | .retrievePostDetails _ postId,.comments => some (commentsConfiguration postId).node
  | _,_ => none

inductive CallStepped (F : Foundation Data) (args : CallArgs) (a : CallAnswers) (s : CallState)
    (delivered : List CallResponse) (e : CallEvent Data) :
    Except Trap (Out Action CallState CallResponse) → Prop where
  | trapped {t} (cause : (t = .firstUserIsNil ∧ ∃ reply, e = .details (.load (.userReply reply)) ∧
          userAnswer F reply = .error t) ∨
        (t = .invalidTopLevelObject ∧ ∃ name r, e = readEvent name r ∧ ScalarSnapshot r))
      (silent : networkSuccess F s e = none) :
      CallStepped F args a s delivered e (.error t)
  | ran {next out} (agrees : CallAgrees F args (a.next F e) next (delivered ++ completions out))
      (writes : writesOf (actions out) = successWrites F (networkSuccess F s e))
      (success : ∀ n, networkSuccess F s e = some n → completions out = [n.response]) :
      CallStepped F args a s delivered e (.ok (next,out))

theorem callStarts (F : Foundation Data) (args : CallArgs) :
    ∃ s out, (dataProvider F).start args = .ok (s,out) ∧ completions out = [] ∧
      writesOf (actions out) = [] ∧ CallAgrees F args (.initial F args) s [] := by
  cases args with
  | retrieveAllPosts =>
    obtain ⟨s,out,started,silent,writes,agrees⟩ := postsStarts F
    refine ⟨.posts s,relabel .posts out,?_,by simp [silent],by simp [writes],.posts agrees⟩
    simp only [dataProvider,started,tag,Except.map]
  | retrievePostDetails userId postId =>
    obtain ⟨s,out,started,silent,writes,rfl,rfl,agrees⟩ := detailsStarts F userId postId
    refine ⟨.details s,relabel .details out,?_,by simp [silent],by simp [writes],.details agrees⟩
    simp only [dataProvider,started,tag,Except.map]

theorem callStepped {F : Foundation Data} {args : CallArgs} {a : CallAnswers} {s : CallState}
    {delivered : List CallResponse} (agrees : CallAgrees F args a s delivered) {e : CallEvent Data}
    {block : Except Trap (Out Action CallState CallResponse)}
    (ok : (dataProvider F).step s e = some block) : CallStepped F args a s delivered e block := by
  cases agrees with
  | posts agrees =>
    cases e with
    | details e => cases ok
    | posts e =>
      simp only [dataProvider,Option.map_eq_some_iff] at ok
      obtain ⟨inner,stepped,rfl⟩ := ok
      cases postsStepped agrees stepped with
      | trapped cause silent =>
        obtain ⟨cause,r,rfl,scalar⟩ := cause
        exact .trapped (Or.inr ⟨cause,.posts,r,rfl,scalar⟩) silent
      | @ran next out agreesNext writes success =>
        refine .ran ?_ (by simpa using writes) (fun n found => by simpa using success n found)
        rw [completionsRelabel,← List.map_append]
        exact .posts agreesNext
  | details agrees =>
    cases e with
    | posts e => cases ok
    | details e =>
      simp only [dataProvider,Option.map_eq_some_iff] at ok
      obtain ⟨inner,stepped,rfl⟩ := ok
      cases detailsStepped agrees stepped with
      | trapped cause silent =>
        rcases cause with ⟨cause,reply,rfl,answer⟩ | ⟨cause,r,rfl | rfl,scalar⟩
        · exact .trapped (Or.inl ⟨cause,reply,rfl,answer⟩) silent
        · exact .trapped (Or.inr ⟨cause,.user,r,rfl,scalar⟩) silent
        · exact .trapped (Or.inr ⟨cause,.comments,r,rfl,scalar⟩) silent
      | @ran next out agreesNext ids writes success =>
        refine .ran ?_ (by simpa using writes) (fun n found => by simpa using success n found)
        rw [completionsRelabel,← List.map_append,← ids.1,← ids.2]
        exact .details agreesNext

theorem callAnswersSnoc (F : Foundation Data) (args : CallArgs) (events : List (CallEvent Data))
    (e : CallEvent Data) :
    callAnswers F args (events ++ [e]) = (callAnswers F args events).next F e := by
  simp [callAnswers,List.foldl_append]

theorem outcomesStart (F : Foundation Data) (args : CallArgs) : Outcomes F [] (.initial F args) := by
  cases args with
  | retrieveAllPosts => exact ⟨refusedReceived F _ _,fun _ => rfl,rfl⟩
  | retrievePostDetails userId postId =>
    exact ⟨refusedReceived F _ _,fun _ => rfl,refusedReceived F _ _,fun _ => rfl,rfl,rfl⟩

theorem postsReplied {F : Foundation Data} {a : PostsAnswers} {s next : RetrieveAllPosts}
    {delivered out} (agrees : PostsAgrees F a s delivered) {reply : Reply Data}
    (ok : s.step F (.reply reply) = some (.ok (next,out))) : a.network = none := by
  cases postsRan ok with
  | reply replied _ =>
    obtain ⟨outstanding,_⟩ := taskReplySource replied
    cases agrees with
    | loading _ network _ _ => exact network
    | loaded task _ _ _ => rw [outstanding] at task; cases task
    | reading _ task _ _ _ _ _ => rw [outstanding] at task; cases task

theorem detailsLoad {F : Foundation Data} {a : DetailsAnswers} {s : RetrievePostDetails}
    {delivered} (agrees : DetailsAgrees F a s delivered) :
    ∃ ran,LoadAgrees a.user a.comments ran s.load := by
  cases agrees with
  | loading load _ _ => exact ⟨_,load⟩
  | loaded load _ _ _ => exact ⟨_,load⟩
  | reading load _ _ _ _ => exact ⟨_,load⟩

theorem postsOutcomesStep {F : Foundation Data} {events : List (CallEvent Data)} {a : PostsAnswers}
    {s next : RetrieveAllPosts} {delivered out} (agrees : PostsAgrees F a s delivered)
    (outcomes : PostsOutcomes F events a) {e : PostsEvent Data} (ok : s.step F e = some (.ok (next,out))) :
    PostsOutcomes F (events ++ [.posts e]) (a.next F e) := by
  cases e with
  | reply reply =>
    have opened := postsReplied agrees ok
    refine ⟨?_,?_,?_⟩
    · rw [findSomeSnoc,outcomes.first opened,PostsAnswers.next,opened]
      exact decodeCompletionValue F _ reply
    · simp [PostsAnswers.next,opened]
    · rw [raceOutcomeSnoc]
      exact outcomes.race
  | read e =>
    have quiet := findSomeQuiet (f := postsReply) (e := CallEvent.posts (.read e)) rfl events
    refine ⟨?_,?_,?_⟩
    · rw [quiet]
      exact outcomes.network
    · rw [quiet]
      exact outcomes.first
    · rw [raceOutcomeSnoc,← outcomes.race]
      rfl

theorem detailsOutcomesStep {F : Foundation Data} {events : List (CallEvent Data)} {a : DetailsAnswers}
    {s next : RetrievePostDetails} {delivered out} (agrees : DetailsAgrees F a s delivered)
    (outcomes : DetailsOutcomes F events a) {e : DetailsEvent Data} (ok : s.step F e = some (.ok (next,out))) :
    DetailsOutcomes F (events ++ [.details e]) (a.next F e) := by
  have userQuiet := findSomeQuiet (f := userReply) (e := CallEvent.details e)
  have commentsQuiet := findSomeQuiet (f := commentsReply) (e := CallEvent.details e)
  have races := fun name => raceOutcomeSnoc events (readBlock name) (CallEvent.details e)
  cases e with
  | read e =>
    have user := userQuiet rfl events
    have comments := commentsQuiet rfl events
    cases e with
    | _ =>
      refine ⟨?_,?_,?_,?_,?_,?_⟩
      · rw [user]; exact outcomes.user
      · rw [user]; exact outcomes.userFirst
      · rw [comments]; exact outcomes.comments
      · rw [comments]; exact outcomes.commentsFirst
      · rw [races,← outcomes.userRace]; rfl
      · rw [races,← outcomes.commentsRace]; rfl
  | load e =>
    have userRace := (races .user).trans outcomes.userRace.symm
    have commentsRace := (races .comments).trans outcomes.commentsRace.symm
    cases detailsRan ok with
    | load stepped _ =>
      obtain ⟨ran,load⟩ := detailsLoad agrees
      cases loadStepped load stepped with
      | @userAnswered reply response _ opened answer _ =>
        have comments := commentsQuiet rfl events
        have value : response.value = (body F (decodeArray User.decode) reply).bind List.head? := by
          rcases userAnswerCases F reply with ⟨_,trap⟩ | ⟨_,_,answered,value⟩
          · cases answer.symm.trans trap
          · cases answer.symm.trans answered
            exact value
        refine ⟨?_,?_,?_,?_,userRace.symm,commentsRace.symm⟩
        · rw [findSomeSnoc,outcomes.userFirst opened,DetailsAnswers.next,opened,answer]
          exact value
        · simp [DetailsAnswers.next,opened,answer,Except.toOption]
        · rw [comments]; exact outcomes.comments
        · rw [comments]; exact outcomes.commentsFirst
      | @commentsAnswered reply _ opened _ =>
        have user := userQuiet rfl events
        refine ⟨?_,?_,?_,?_,userRace.symm,commentsRace.symm⟩
        · rw [user]; exact outcomes.user
        · rw [user]; exact outcomes.userFirst
        · rw [findSomeSnoc,outcomes.commentsFirst opened,DetailsAnswers.next,opened]
          exact decodeCompletionValue F _ reply
        · simp [DetailsAnswers.next,opened]
      | joined _ _ _ _ _ =>
        have user := userQuiet rfl events
        have comments := commentsQuiet rfl events
        refine ⟨?_,?_,?_,?_,userRace.symm,commentsRace.symm⟩
        · rw [user]; exact outcomes.user
        · rw [user]; exact outcomes.userFirst
        · rw [comments]; exact outcomes.comments
        · rw [comments]; exact outcomes.commentsFirst

theorem outcomesStep {F : Foundation Data} {events : List (CallEvent Data)} {args : CallArgs} {a : CallAnswers}
    {s next : CallState} {delivered out} (agrees : CallAgrees F args a s delivered) (outcomes : Outcomes F events a)
    {e : CallEvent Data} (ok : (dataProvider F).step s e = some (.ok (next,out))) :
    Outcomes F (events ++ [e]) (a.next F e) := by
  cases callRan ok with
  | posts stepped =>
    cases agrees with
    | posts agrees => exact postsOutcomesStep agrees outcomes stepped
  | details stepped =>
    cases agrees with
    | details agrees => exact detailsOutcomesStep agrees outcomes stepped

theorem callAccounts {F : Foundation Data} {args : CallArgs} {events : List (CallEvent Data)}
    {i : Instance CallArgs CallState CallResponse} (ran : (dataProvider F).exec args events = some (.ok i)) :
    CallAgrees F i.args (callAnswers F i.args events) i.state i.delivered ∧
      Outcomes F events (callAnswers F i.args events) := by
  have initial : ∀ i, (dataProvider F).spawn args = .ok i →
      CallAgrees F args (callAnswers F args []) i.state i.delivered ∧ Outcomes F [] (callAnswers F args []) := by
    intro i spawned
    obtain ⟨s,out,started,silent,_,agrees⟩ := callStarts F args
    obtain ⟨_,_,again,rfl⟩ := Machine.spawnOk spawned
    cases started.symm.trans again
    rw [silent]
    exact ⟨agrees,outcomesStart F args⟩
  obtain ⟨held,same⟩ := Machine.execInvariant
    (fun events i => CallAgrees F args (callAnswers F args events) i.state i.delivered ∧
      Outcomes F events (callAnswers F args events)) initial
    (fun events i e next held _ advanced => by
      obtain ⟨s,out,stepped,rfl⟩ := Machine.advanceOk advanced
      rw [callAnswersSnoc]
      refine ⟨?_,outcomesStep held.1 held.2 stepped⟩
      cases callStepped held.1 stepped with
      | ran agreesNext _ _ => exact agreesNext) ran
  rw [same]
  exact held

theorem callRun {F : Foundation Data} {args : CallArgs} {events : List (CallEvent Data)}
    {i : Instance CallArgs CallState CallResponse}
    (ran : (dataProvider F).exec args events = some (.ok i)) :
    CallAgrees F i.args (callAnswers F i.args events) i.state i.delivered := (callAccounts ran).1

theorem callDelivered {F : Foundation Data} {args : CallArgs} {a : CallAnswers} {s : CallState}
    {delivered : List CallResponse} (agrees : CallAgrees F args a s delivered) :
    delivered = [] ∨ delivered = [a.spec F] := by
  cases agrees with
  | posts agrees => rcases postsDelivered agrees with rfl | rfl <;> simp [CallAnswers.spec]
  | details agrees => rcases detailsDelivered agrees with rfl | rfl <;> simp [CallAnswers.spec]

/- Firebase may leave a read without any snapshot; every other block that is
pending does run. -/
def snapshotOf : CallEvent Data → Option (ReadName × DataSnapshot)
  | .posts (.read (.snapshot snapshot)) => some (.posts,snapshot)
  | .details (.read (.user (.snapshot snapshot))) => some (.user,snapshot)
  | .details (.read (.comments (.snapshot snapshot))) => some (.comments,snapshot)
  | _ => none

def Settled (F : Foundation Data) (s : CallState) : Prop :=
  ∀ e : CallEvent Data, snapshotOf e = none → (dataProvider F).step s e = none

theorem callSettled {F : Foundation Data} {args : CallArgs} {a : CallAnswers} {s : CallState}
    {delivered : List CallResponse} (agrees : CallAgrees F args a s delivered)
    (settled : Settled F s) : delivered = [a.spec F] := by
  cases agrees with
  | posts agrees =>
    have idle : ∀ e : PostsEvent Data, snapshotOf (CallEvent.posts e) = none →
        RetrieveAllPosts.step F _ e = none :=
      fun e forced => Option.map_eq_none_iff.mp (settled (.posts e) forced)
    rw [postsSettled agrees (idle _ rfl) (idle _ rfl)]
    rfl
  | details agrees =>
    have idle : ∀ e : DetailsEvent Data, snapshotOf (CallEvent.details e) = none →
        RetrievePostDetails.step F _ e = none :=
      fun e forced => Option.map_eq_none_iff.mp (settled (.details e) forced)
    rw [detailsSettled agrees (fun e => idle _ rfl) (idle _ rfl) (idle _ rfl) (idle _ rfl)]
    rfl

def CallState.joins : CallState → List PostDetailsVars
  | .posts _ => []
  | .details s => s.load.vars :: (s.read.map ReadPostDetails.vars).toList

theorem callSound {F : Foundation Data} {args : CallArgs} {a : CallAnswers} {s : CallState}
    {delivered : List CallResponse} (agrees : CallAgrees F args a s delivered) :
    ∀ v ∈ s.joins, v.Sound := by
  cases agrees with
  | posts _ => simp [CallState.joins]
  | details agrees =>
    simp only [CallState.joins,List.forall_mem_cons]
    cases agrees with
    | loading load read _ => exact ⟨joinSound load.join,by simp [read]⟩
    | loaded load read _ _ => exact ⟨joinSound load.join,by simp [read]⟩
    | reading load _ read _ reads => exact ⟨joinSound load.join,by simpa [read] using joinSound reads.join⟩

theorem callReads {F : Foundation Data} {args : CallArgs} {a : CallAnswers} {s : CallState}
    {delivered : List CallResponse} (agrees : CallAgrees F args a s delivered) {name : ReadName}
    {r : Read} (found : s.read name = some r) : args.node name = some r.node ∧ ReadAgrees (a.race name) r := by
  cases agrees with
  | posts agrees =>
    cases name <;> try contradiction
    simp only [CallState.read] at found
    cases agrees with
    | loading _ _ read _ => rw [read] at found; cases found
    | loaded _ read _ _ => rw [read] at found; cases found
    | reading _ _ _ read node reads _ =>
      cases Option.some.inj (read.symm.trans found)
      exact ⟨congrArg some node.symm,reads⟩
  | details agrees =>
    cases agrees with
    | loading _ read _ => cases name <;> simp [CallState.read,read] at found
    | loaded _ read _ _ => cases name <;> simp [CallState.read,read] at found
    | reading _ _ read nodes reads =>
      obtain ⟨users,lists⟩ := Prod.mk.inj nodes
      cases name with
      | posts => cases found
      | user =>
        simp only [CallState.read,read,Option.map_some,Option.some.injEq] at found
        subst found
        exact ⟨congrArg some users.symm,reads.userRead⟩
      | comments =>
        simp only [CallState.read,read,Option.map_some,Option.some.injEq] at found
        subst found
        exact ⟨congrArg some lists.symm,reads.commentsRead⟩

theorem instanceAgrees {F : Foundation Data} {events : List (ProviderEvent Data)} {w : Provider}
    (ran : Pool.run (dataProvider F) events = some w) {i : Instance CallArgs CallState CallResponse}
    (member : i ∈ w.instances) : ∃ a, CallAgrees F i.args a i.state i.delivered := by
  obtain ⟨history,alone⟩ := everyInstance ran member
  exact ⟨_,callRun alone⟩

theorem ownAgrees {F : Foundation Data} {events : List (ProviderEvent Data)} {w : Provider}
    (ran : Pool.run (dataProvider F) events = some w) (alive : w.trap = none) {call : Nat}
    {i : Instance CallArgs CallState CallResponse} (found : w.instances[call]? = some i) :
    CallAgrees F i.args (callAnswers F i.args (own call events)) i.state i.delivered :=
  callRun (projection ran alive found)

theorem ownDelivered {F : Foundation Data} {events : List (ProviderEvent Data)} {w : Provider}
    (ran : Pool.run (dataProvider F) events = some w) (alive : w.trap = none) {call : Nat}
    {i : Instance CallArgs CallState CallResponse} (found : w.instances[call]? = some i) :
    i.delivered = [] ∨ i.delivered = [sequentialSpec F i.args (own call events)] := by
  obtain ⟨agrees,outcomes⟩ := callAccounts (projection ran alive found)
  rw [← outcomesSpec agrees outcomes]
  exact callDelivered agrees

/- A run ends early only in a block that takes the first of no users, or that
converts a scalar snapshot. -/
theorem providerTrap {F : Foundation Data} {events : List (ProviderEvent Data)} {w : Provider} {t : Trap}
    (ran : Pool.run (dataProvider F) events = some w) (trapped : w.trap = some t) :
    ∃ before call e old i, events = before ++ [.step call e] ∧
      Pool.run (dataProvider F) before = some old ∧ old.trap = none ∧ old.instances[call]? = some i ∧
      ((dataProvider F).step i.state e = some (.error t)) ∧
      ((t = .firstUserIsNil ∧ ∃ reply, e = .details (.load (.userReply reply)) ∧
          userAnswer F reply = .error t) ∨
        (t = .invalidTopLevelObject ∧ ∃ name r, e = readEvent name r ∧ ScalarSnapshot r)) := by
  obtain ⟨before,e,old,split,ranOld,alive,_,raised⟩ := poolTrap ran trapped
  rcases raised with ⟨args,_,started⟩ | ⟨call,block,i,rfl,found,stepped⟩
  · obtain ⟨s,out,starts,_⟩ := callStarts F args
    rw [started] at starts
    cases starts
  · obtain ⟨a,agrees⟩ := instanceAgrees ranOld (List.mem_iff_getElem?.mpr ⟨call,found⟩)
    cases callStepped agrees stepped with
    | trapped cause _ => exact ⟨before,call,block,old,i,split,ranOld,alive,found,stepped,cause⟩

end BabylonHealthDemo
