import BabylonHealthDemo.Retrievals

/-! Deliveries lists the network successes of a run with their calls, in the order
the queue ran them. Every write of the run comes from one of them, and every one
of them is the only response of its call. The response of any call is decided by
the outcomes of its own sub-requests, whatever their order. -/
namespace BabylonHealthDemo
open JsonTree PathStore Callbacks

def NetworkSuccess.args : NetworkSuccess → CallArgs
  | .posts _ => .retrieveAllPosts
  | .details userId postId _ _ => .retrievePostDetails userId postId

def providerSuccess (F : Foundation Data) (w : Provider) :
    ProviderEvent Data → List (Nat × NetworkSuccess)
  | .spawn _ => []
  | .step call e => match w.instances[call]? with
    | none => []
    | some i => ((networkSuccess F i.state e).map (fun n => (call,n))).toList

def deliveries (F : Foundation Data) (events : List (ProviderEvent Data)) :
    List (Nat × NetworkSuccess) :=
  (Pool.observe (dataProvider F) (providerSuccess F) events).flatten

theorem deliveriesSnoc {F : Foundation Data} {events : List (ProviderEvent Data)} {w : Provider}
    (ran : Pool.run (dataProvider F) events = some w) (e : ProviderEvent Data) :
    deliveries F (events ++ [e]) = deliveries F events ++ providerSuccess F w e := by
  simp [deliveries,observeSnoc ran]

theorem deliveriesPrefix (F : Foundation Data) (xs ys : List (ProviderEvent Data)) :
    deliveries F xs <+: deliveries F (xs ++ ys) := by
  obtain ⟨rest,same⟩ := observePrefix (dataProvider F) (providerSuccess F) xs ys
  exact ⟨rest.flatten,by simp only [deliveries,← same,List.flatten_append]⟩

theorem successArgs {F : Foundation Data} {args : CallArgs} {a : CallAnswers} {s : CallState}
    {delivered : List CallResponse} (agrees : CallAgrees F args a s delivered) {e : CallEvent Data}
    {n : NetworkSuccess} (success : networkSuccess F s e = some n) : n.args = args := by
  cases agrees with
  | posts _ =>
    cases e with
    | details _ => cases success
    | posts e =>
      cases e with
      | read _ => cases success
      | reply reply =>
        obtain ⟨list,_,rfl⟩ := Option.map_eq_some_iff.mp success
        rfl
  | details _ =>
    cases e with
    | posts _ => cases success
    | details e =>
      cases e with
      | read _ => cases success
      | load e =>
        cases e with
        | notify =>
          obtain ⟨d,_,rfl⟩ := Option.map_eq_some_iff.mp success
          rfl
        | _ => cases success

theorem runWrites {F : Foundation Data} {events : List (ProviderEvent Data)} {w : Provider}
    (ran : Pool.run (dataProvider F) events = some w) :
    writesOf w.log = (deliveries F events).flatMap (fun d => d.2.writes F) := by
  refine runInvariant (m := dataProvider F)
    (fun events w => writesOf w.log = (deliveries F events).flatMap (fun d => d.2.writes F)) rfl ?_ ran
  intro events w e next ran same _ stepped
  rw [deliveriesSnoc ran,List.flatMap_append,← same]
  cases stepped with
  | spawnTrap _ => simp [providerSuccess]
  | @spawned args s out started =>
    obtain ⟨_,_,starts,_,silent,_⟩ := callStarts F args
    cases started.symm.trans starts
    simp [providerSuccess,writesAppend,silent]
  | stepTrap found trapped =>
    obtain ⟨a,agrees⟩ := instanceAgrees ran (List.mem_iff_getElem?.mpr ⟨_,found⟩)
    cases callStepped agrees trapped with
    | trapped _ silent => simp [providerSuccess,found,silent]
  | stepped found block =>
    obtain ⟨a,agrees⟩ := instanceAgrees ran (List.mem_iff_getElem?.mpr ⟨_,found⟩)
    cases callStepped agrees block with
    | ran _ writes _ =>
      simp only [providerSuccess,found,writesAppend,writes,successWrites]
      cases networkSuccess F _ _ <;> simp

theorem deliveryHeld {F : Foundation Data} {events : List (ProviderEvent Data)} {w : Provider}
    (ran : Pool.run (dataProvider F) events = some w) {d : Nat × NetworkSuccess}
    (member : d ∈ deliveries F events) :
    ∃ i, w.instances[d.1]? = some i ∧ i.delivered = [d.2.response] ∧ i.args = d.2.args := by
  induction events using List.reverseRecOn generalizing w with
  | nil => cases member
  | append_singleton events e ih =>
    obtain ⟨before,ranBefore,step⟩ := runSnocSource ran
    obtain ⟨_,stepped⟩ := poolStepCases step
    rw [deliveriesSnoc ranBefore,List.mem_append] at member
    rcases member with old | new
    · obtain ⟨i,found,response,args⟩ := ih ranBefore old
      obtain ⟨j,foundJ,sameArgs,grown⟩ := instanceKept stepped found
      refine ⟨j,foundJ,?_,sameArgs.trans args⟩
      obtain ⟨a,agrees⟩ := instanceAgrees ran (List.mem_iff_getElem?.mpr ⟨_,foundJ⟩)
      rw [response] at grown
      rcases callDelivered agrees with none | one
      · rw [none] at grown
        cases List.prefix_nil.mp grown
      · rw [one] at grown ⊢
        exact (grown.eq_of_length rfl).symm
    · cases e with
      | spawn args => cases new
      | step call e =>
        cases found : before.instances[call]? with
        | none => simp [providerSuccess,found] at new
        | some i =>
          cases success : networkSuccess F i.state e with
          | none => simp [providerSuccess,found,success] at new
          | some n =>
            simp only [providerSuccess,found,success,Option.map_some,Option.toList_some,
              List.mem_singleton] at new
            subst new
            obtain ⟨a,agrees⟩ := instanceAgrees ranBefore (List.mem_iff_getElem?.mpr ⟨_,found⟩)
            have inside := (List.getElem?_eq_some_iff.mp found).1
            cases stepped with
            | stepTrap foundI trapped =>
              cases found.symm.trans foundI
              cases callStepped agrees trapped with
              | trapped _ silent => rw [success] at silent; cases silent
            | stepped foundI block =>
              cases found.symm.trans foundI
              cases callStepped agrees block with
              | ran agreesNext _ succeeded =>
                refine ⟨_,List.getElem?_set_self inside,?_,(successArgs agrees success).symm⟩
                rw [succeeded n success] at agreesNext ⊢
                rcases callDelivered agreesNext with none | one
                · simp at none
                · cases empty : i.delivered with
                  | nil => rfl
                  | cons r rest => simp [empty] at one

inductive SubRequest where
  | posts
  | postsRead
  | user
  | comments
  | userRead
  | commentsRead
  deriving DecidableEq, Repr

def CallEvent.subRequest : CallEvent Data → Option SubRequest
  | .posts (.reply _) => some .posts
  | .posts (.read _) => some .postsRead
  | .details (.load (.userReply _)) => some .user
  | .details (.load (.commentsReply _)) => some .comments
  | .details (.load .notify) => none
  | .details (.read (.user _)) => some .userRead
  | .details (.read (.comments _)) => some .commentsRead
  | .details (.read .notify) => none

def outcomes (r : SubRequest) (events : List (CallEvent Data)) : List (CallEvent Data) :=
  events.filter (fun e => e.subRequest = some r)

theorem foldlPart {next : α → ε → α} (part : α → β) (own : ε → Bool)
    (hits : ∀ a b e, part a = part b → part (next a e) = part (next b e))
    (misses : ∀ a e, own e = false → part (next a e) = part a) (events : List ε) {a b : α}
    (same : part a = part b) :
    part (events.foldl next a) = part ((events.filter own).foldl next b) := by
  induction events generalizing a b with
  | nil => exact same
  | cons e events ih =>
    cases mine : own e with
    | true => simpa [mine] using ih (hits a b e same)
    | false => simpa [mine] using ih ((misses a e mine).trans same)

theorem partOutcomes (next : α → CallEvent Data → α) (part : α → β) (r : SubRequest)
    (hits : ∀ a b e, part a = part b → part (next a e) = part (next b e))
    (misses : ∀ a e, e.subRequest ≠ some r → part (next a e) = part a)
    {xs ys : List (CallEvent Data)} (same : outcomes r xs = outcomes r ys) (a : α) :
    part (xs.foldl next a) = part (ys.foldl next a) := by
  have other : ∀ a e, decide (e.subRequest = some r) = false → part (next a e) = part a :=
    fun a e h => misses a e (of_decide_eq_false h)
  rw [foldlPart part _ hits other xs rfl,foldlPart part _ hits other ys rfl]
  exact congrArg (fun events => part (events.foldl next a)) same

def DetailsAnswers.receive (F : Foundation Data) (a : DetailsAnswers) : CallEvent Data → DetailsAnswers
  | .details e => a.next F e
  | .posts _ => a

def PostsAnswers.receive (F : Foundation Data) (a : PostsAnswers) : CallEvent Data → PostsAnswers
  | .posts e => a.next F e
  | .details _ => a

theorem detailsFold (F : Foundation Data) (events : List (CallEvent Data)) (a : DetailsAnswers) :
    events.foldl (CallAnswers.next F) (.details a) = .details (events.foldl (DetailsAnswers.receive F) a) := by
  induction events generalizing a with
  | nil => rfl
  | cons e events ih => cases e <;> exact ih _

theorem postsFold (F : Foundation Data) (events : List (CallEvent Data)) (a : PostsAnswers) :
    events.foldl (CallAnswers.next F) (.posts a) = .posts (events.foldl (PostsAnswers.receive F) a) := by
  induction events generalizing a with
  | nil => rfl
  | cons e events ih => cases e <;> exact ih _

theorem postsParts (F : Foundation Data) (a b : PostsAnswers) (e : CallEvent Data) :
    (a.network = b.network → (a.receive F e).network = (b.receive F e).network) ∧
    (a.race = b.race → (a.receive F e).race = (b.receive F e).race) := by
  rcases e with (_ | _) | _ <;> simp +contextual [PostsAnswers.receive,PostsAnswers.next]

theorem postsOthers (F : Foundation Data) (a : PostsAnswers) (e : CallEvent Data) :
    (e.subRequest ≠ some .posts → (a.receive F e).network = a.network) ∧
    (e.subRequest ≠ some .postsRead → (a.receive F e).race = a.race) := by
  rcases e with (_ | _) | _ <;> simp [PostsAnswers.receive,PostsAnswers.next,CallEvent.subRequest]

theorem detailsParts (F : Foundation Data) (a b : DetailsAnswers) (e : CallEvent Data) :
    (a.user = b.user → (a.receive F e).user = (b.receive F e).user) ∧
    (a.comments = b.comments → (a.receive F e).comments = (b.receive F e).comments) ∧
    (a.userRace = b.userRace → (a.receive F e).userRace = (b.receive F e).userRace) ∧
    (a.commentsRace = b.commentsRace → (a.receive F e).commentsRace = (b.receive F e).commentsRace) := by
  rcases e with _ | ((_ | _ | _) | (_ | _ | _)) <;>
    simp +contextual [DetailsAnswers.receive,DetailsAnswers.next]

theorem detailsOthers (F : Foundation Data) (a : DetailsAnswers) (e : CallEvent Data) :
    (e.subRequest ≠ some .user → (a.receive F e).user = a.user) ∧
    (e.subRequest ≠ some .comments → (a.receive F e).comments = a.comments) ∧
    (e.subRequest ≠ some .userRead → (a.receive F e).userRace = a.userRace) ∧
    (e.subRequest ≠ some .commentsRead → (a.receive F e).commentsRace = a.commentsRace) := by
  rcases e with _ | ((_ | _ | _) | (_ | _ | _)) <;>
    simp [DetailsAnswers.receive,DetailsAnswers.next,CallEvent.subRequest]

theorem postsOutcomes (F : Foundation Data) {xs ys : List (CallEvent Data)}
    (same : ∀ r, outcomes r xs = outcomes r ys) (a : PostsAnswers) :
    xs.foldl (PostsAnswers.receive F) a = ys.foldl (PostsAnswers.receive F) a := by
  have network := partOutcomes (PostsAnswers.receive F) PostsAnswers.network .posts
    (fun a b e => (postsParts F a b e).1) (fun a e => (postsOthers F a e).1) (same .posts) a
  have race := partOutcomes (PostsAnswers.receive F) PostsAnswers.race .postsRead
    (fun a b e => (postsParts F a b e).2) (fun a e => (postsOthers F a e).2) (same .postsRead) a
  generalize xs.foldl (PostsAnswers.receive F) a = x at *
  generalize ys.foldl (PostsAnswers.receive F) a = y at *
  cases x
  cases y
  simp only at network race
  rw [network,race]

theorem detailsOutcomes (F : Foundation Data) {xs ys : List (CallEvent Data)}
    (same : ∀ r, outcomes r xs = outcomes r ys) (a : DetailsAnswers) :
    xs.foldl (DetailsAnswers.receive F) a = ys.foldl (DetailsAnswers.receive F) a := by
  have user := partOutcomes (DetailsAnswers.receive F) DetailsAnswers.user .user
    (fun a b e => (detailsParts F a b e).1) (fun a e => (detailsOthers F a e).1) (same .user) a
  have comments := partOutcomes (DetailsAnswers.receive F) DetailsAnswers.comments .comments
    (fun a b e => (detailsParts F a b e).2.1) (fun a e => (detailsOthers F a e).2.1) (same .comments) a
  have userRace := partOutcomes (DetailsAnswers.receive F) DetailsAnswers.userRace .userRead
    (fun a b e => (detailsParts F a b e).2.2.1) (fun a e => (detailsOthers F a e).2.2.1)
    (same .userRead) a
  have commentsRace := partOutcomes (DetailsAnswers.receive F) DetailsAnswers.commentsRace .commentsRead
    (fun a b e => (detailsParts F a b e).2.2.2) (fun a e => (detailsOthers F a e).2.2.2)
    (same .commentsRead) a
  generalize xs.foldl (DetailsAnswers.receive F) a = x at *
  generalize ys.foldl (DetailsAnswers.receive F) a = y at *
  cases x
  cases y
  simp only at user comments userRace commentsRace
  rw [user,comments,userRace,commentsRace]

theorem answersOfOutcomes (F : Foundation Data) (args : CallArgs) {xs ys : List (CallEvent Data)}
    (same : ∀ r, outcomes r xs = outcomes r ys) : callAnswers F args xs = callAnswers F args ys := by
  cases args with
  | retrieveAllPosts => simp only [callAnswers,CallAnswers.initial,postsFold,postsOutcomes F same]
  | retrievePostDetails userId postId =>
    simp only [callAnswers,CallAnswers.initial,detailsFold,detailsOutcomes F same]

/- In every interleaving a call delivers what its own sub-requests owe it, reads its
own nodes, and writes only what it has delivered from the network. -/
theorem retrievalRefinesSpec (F : Foundation Data) {events : List (ProviderEvent Data)} {w : Provider}
    (ran : Pool.run (dataProvider F) events = some w) (alive : w.trap = none) :
    (∀ call i, w.instances[call]? = some i →
      (i.delivered = [] ∨ i.delivered = [sequentialSpec F i.args (own call events)]) ∧
      (i.delivered = [] → ¬ Settled F i.state) ∧
      (∀ name r, i.state.read name = some r → i.args.node name = some r.node)) ∧
    (∀ (others : List (ProviderEvent Data)) (v : Provider) (call other : Nat)
        (i j : Instance CallArgs CallState CallResponse),
      Pool.run (dataProvider F) others = some v → v.trap = none →
      w.instances[call]? = some i → v.instances[other]? = some j → i.args = j.args →
      (∀ r, outcomes r (own call events) = outcomes r (own other others)) →
      i.delivered ≠ [] → j.delivered ≠ [] → i.delivered = j.delivered) ∧
    (writesOf w.log = (deliveries F events).flatMap (fun d => d.2.writes F) ∧
      ∀ d ∈ deliveries F events, ∃ i, w.instances[d.1]? = some i ∧ i.args = d.2.args ∧
        i.delivered = [d.2.response]) := by
  refine ⟨?_,?_,runWrites ran,?_⟩
  · intro call i found
    have agrees := ownAgrees ran alive found
    refine ⟨ownDelivered ran alive found,?_,fun name r reading => (callReads agrees reading).1⟩
    intro undelivered settled
    rw [callSettled agrees settled] at undelivered
    cases undelivered
  · intro others v call other i j ranV aliveV foundI foundJ args same first second
    have left := (callDelivered (ownAgrees ran alive foundI)).resolve_left first
    have right := (callDelivered (ownAgrees ranV aliveV foundJ)).resolve_left second
    rw [left,right,args,answersOfOutcomes F j.args same]
  · intro d member
    obtain ⟨i,found,response,args⟩ := deliveryHeld ran member
    exact ⟨i,found,args,response⟩

def answeredRun (userFirst : Bool) : List (ProviderEvent Json) :=
  let user := .step 0 (.details (.load (.userReply ⟨some (encodeArray User.encode [sampleUser 1]),none⟩)))
  let comments := .step 0 (.details (.load (.commentsReply
    ⟨some (encodeArray Comment.encode [sampleComment 2 1,sampleComment 2 2]),none⟩)))
  .spawn (.retrievePostDetails 1 2) ::
    (if userFirst then [user,comments] else [comments,user]) ++ [.step 0 (.details (.load .notify))]

theorem answeredRunsRefineSpec : ∃ w v, Pool.run (dataProvider plainFoundation) (answeredRun true) = some w ∧
    Pool.run (dataProvider plainFoundation) (answeredRun false) = some v ∧
    w.instances.map Instance.delivered =
      [[.details (.success ⟨sampleUser 1,[sampleComment 2 1,sampleComment 2 2]⟩)]] ∧
    w.instances.map Instance.delivered = v.instances.map Instance.delivered := by
  obtain ⟨_,swap,_⟩ := retrievalRefinesSpec plainFoundation
    (show Pool.run _ (answeredRun true) = some _ from rfl) rfl
  have same := swap (answeredRun false) _ 0 0 _ _ rfl rfl rfl rfl rfl
    (fun r => by cases r <;> rfl) (List.cons_ne_nil _ _) (List.cons_ne_nil _ _)
  exact ⟨_,_,rfl,rfl,rfl,congrArg (fun d => [d]) same⟩

end BabylonHealthDemo
