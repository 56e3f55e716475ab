import BabylonHealthDemo.DatabaseReads

/-! The database writes on their own, under any conversions and any order of
acknowledgements. Each write is visible at once, acknowledged once, and taken back
when Firebase refuses it. writePosts issues one write. writePostDetails issues two
that nothing joins: each reports to the completion, and stands or falls, alone. -/
namespace BabylonHealthDemo
open JsonTree PathStore Callbacks

inductive WriteArgs where
  | posts (list : List Post)
  | details (user : User) (comments : List Comment)

def WriteArgs.write (F : Foundation Data) : WriteArgs → List (Effect Action (ResponseType Bool))
  | .posts list => writePosts F list
  | .details user comments => writePostDetails F user comments

abbrev WriteLog := List (Tentative SwiftError)
abbrev WriteCall := Instance WriteArgs WriteLog (ResponseType Bool)

structure Acknowledgement where
  call : Nat
  error : Option SwiftError

def Acknowledgement.response (e : Acknowledgement) : ResponseType Bool :=
  match e.error with
  | none => .success true
  | some error => .failure error

theorem acknowledgedResponse (node : Path) (e : Acknowledgement) :
    writeAcknowledged node e.error = e.response := by
  obtain ⟨_,_ | error⟩ := e <;> rfl

theorem failureResponse {e : Acknowledgement} {error : SwiftError} :
    e.response = .failure error ↔ e.error = some error := by
  obtain ⟨_,_ | given⟩ := e <;> simp [Acknowledgement.response]

/- The completion block of the given setValue; Firebase runs it once. -/
def acknowledge (s : WriteLog) (e : Acknowledgement) :
    Option (Except Trap (Out Action WriteLog (ResponseType Bool))) := do
  let t ← s[e.call]?
  if t.verdict.isSome then none
  else some (.ok (s.set e.call {t with verdict := some e.error},
    [.complete (writeAcknowledged t.write.path e.error)]))

def databaseWrites (F : Foundation Data) :
    Machine WriteArgs WriteLog Acknowledgement Action (ResponseType Bool) Trap :=
  ⟨fun args => .ok ((writesOf (actions (args.write F))).map (⟨·,none⟩),args.write F),acknowledge⟩

theorem acknowledgeSource {s : WriteLog} {e : Acknowledgement}
    {block : Except Trap (Out Action WriteLog (ResponseType Bool))}
    (ok : acknowledge s e = some block) : ∃ t, s[e.call]? = some t ∧ t.verdict = none ∧
      block = .ok (s.set e.call {t with verdict := some e.error},
        [.complete (writeAcknowledged t.write.path e.error)]) := by
  simp only [acknowledge,bind,Option.bind_eq_some_iff] at ok
  obtain ⟨t,found,last⟩ := ok
  split at last <;> try contradiction
  rename_i unanswered
  exact ⟨t,found,by simpa using unanswered,(Option.some.inj last).symm⟩

theorem acknowledgeIdle {s : WriteLog} :
    (∀ e, acknowledge s e = none) ↔ ∀ t ∈ s, t.verdict.isSome = true := by
  constructor
  · intro idle t member
    obtain ⟨call,found⟩ := List.mem_iff_getElem?.mp member
    have quiet := idle ⟨call,none⟩
    exact Option.isSome_iff_ne_none.mpr (by simpa [acknowledge,found] using quiet)
  · intro answered e
    cases block : acknowledge s e with
    | none => rfl
    | some block =>
      obtain ⟨t,found,unanswered,_⟩ := acknowledgeSource block
      have closed := answered t (List.mem_iff_getElem?.mpr ⟨_,found⟩)
      rw [unanswered] at closed
      cases closed

structure WritesAgree (out : List (Effect Action (ResponseType Bool))) (events : List Acknowledgement)
    (s : WriteLog) (delivered : List (ResponseType Bool)) : Prop where
  issued : s.map Tentative.write = writesOf (actions out)
  pending : events.length + s.countP (fun t => t.verdict.isNone) = s.length
  verdicts : ∀ e, e ∈ events ↔ ∃ t, s[e.call]? = some t ∧ t.verdict = some e.error
  answers : delivered = completions out ++ events.map Acknowledgement.response

theorem writesStart (out : List (Effect Action (ResponseType Bool))) :
    WritesAgree out [] ((writesOf (actions out)).map (⟨·,none⟩)) (completions out) where
  issued := by simp [Function.comp_def]
  pending := by simp [List.countP_map,Function.comp_def]
  verdicts e := by
    simp only [List.not_mem_nil,false_iff,List.getElem?_map,Option.map_eq_some_iff]
    rintro ⟨_,⟨w,_,rfl⟩,verdict⟩
    cases verdict
  answers := by simp

theorem writesAcknowledged {out : List (Effect Action (ResponseType Bool))} {events : List Acknowledgement}
    {s : WriteLog} {delivered : List (ResponseType Bool)} {e : Acknowledgement}
    {t : Tentative SwiftError} (agrees : WritesAgree out events s delivered) (found : s[e.call]? = some t)
    (unanswered : t.verdict = none) :
    WritesAgree out (events ++ [e]) (s.set e.call {t with verdict := some e.error})
      (delivered ++ [writeAcknowledged t.write.path e.error]) := by
  obtain ⟨inside,here⟩ := List.getElem?_eq_some_iff.mp found
  refine ⟨?_,?_,?_,?_⟩
  · have same : (s.map Tentative.write)[e.call]? = some t.write := by simp [found]
    obtain ⟨bound,value⟩ := List.getElem?_eq_some_iff.mp same
    rw [List.map_set,← agrees.issued]
    exact (congrArg _ value.symm).trans (List.set_getElem_self bound)
  · have one : 0 < s.countP (fun t => t.verdict.isNone) :=
      List.countP_pos_iff.mpr ⟨t,List.mem_iff_getElem?.mpr ⟨_,found⟩,by simp [unanswered]⟩
    have before := agrees.pending
    rw [List.countP_set inside,here]
    simp only [unanswered,Option.isNone_none,if_true,Option.isNone_some,Bool.false_eq_true,if_false,
      List.length_append,List.length_singleton,List.length_set]
    omega
  · intro other
    rw [List.mem_append,List.mem_singleton,agrees.verdicts]
    by_cases same : other.call = e.call
    · rw [same,List.getElem?_set_self inside,found]
      obtain ⟨call,given⟩ := e
      obtain ⟨_,error⟩ := other
      cases same
      simp [unanswered,eq_comm]
    · rw [List.getElem?_set_ne (Ne.symm same)]
      exact or_iff_left (fun hit => same (hit ▸ rfl))
  · rw [agrees.answers,acknowledgedResponse,List.append_assoc,List.map_append,List.map_singleton]

theorem writesRun {F : Foundation Data} {args : WriteArgs} {events : List Acknowledgement}
    {i : WriteCall} (ran : (databaseWrites F).exec args events = some (.ok i)) :
    WritesAgree (args.write F) events i.state i.delivered := by
  have initial : ∀ i, (databaseWrites F).spawn args = .ok i →
      WritesAgree (args.write F) [] i.state i.delivered := by
    intro i spawned
    cases spawned
    exact writesStart _
  refine (Machine.execInvariant (fun events i => WritesAgree (args.write F) events i.state i.delivered)
    initial ?_ ran).1
  intro events i e next agrees _ advanced
  obtain ⟨s,out,stepped,rfl⟩ := Machine.advanceOk advanced
  obtain ⟨t,found,unanswered,same⟩ := acknowledgeSource stepped
  cases same
  exact writesAcknowledged agrees found unanswered

theorem writesAlive {F : Foundation Data} {args : WriteArgs} {events : List Acknowledgement}
    {result : Except Trap WriteCall}
    (ran : (databaseWrites F).exec args events = some result) : ∃ i, result = .ok i := by
  cases result with
  | ok i => exact ⟨i,rfl⟩
  | error t =>
    rcases Machine.execTrap ran with started | ⟨_,i,e,_,_,stepped⟩
    · cases started
    · obtain ⟨_,_,_,same⟩ := acknowledgeSource stepped
      cases same

theorem writesSettled {F : Foundation Data} {args : WriteArgs} {events : List Acknowledgement}
    {i : WriteCall}
    (ran : (databaseWrites F).exec args events = some (.ok i)) (settled : ∀ e, acknowledge i.state e = none) :
    events.length = (writesOf (actions (args.write F))).length := by
  have agrees := writesRun ran
  have answered : i.state.countP (fun t => t.verdict.isNone) = 0 :=
    List.countP_eq_zero.mpr (fun t member => by
      simpa [Option.isSome_iff_ne_none] using acknowledgeIdle.mp settled t member)
  rw [← agrees.issued,List.length_map,← agrees.pending,answered]
  rfl

def WriteArgs.parts (F : Foundation Data) : WriteArgs → Option (List Write)
  | .posts list => do
    let array ← asArray F (encodeArray Post.encode list)
    some [⟨postsConfiguration.node,array⟩]
  | .details user comments => do
    let userDict ← asDictionary F user.encode
    let firstComment ← comments.head?
    let commentsArray ← asArray F (encodeArray Comment.encode comments)
    some [⟨(userConfiguration user.userId).node,userDict⟩,
      ⟨(commentsConfiguration firstComment.postId).node,commentsArray⟩]

inductive Issued (F : Foundation Data) : WriteArgs → List (Effect Action (ResponseType Bool)) → Prop where
  | nothing {args} (parts : args.parts F = none)
      (unconverted : ∀ user comments, args = .details user comments → asDictionary F user.encode = none) :
      Issued F args [.complete (.failure (.apiDatabase .conversionError))]
  | posts {list w} (parts : (WriteArgs.posts list).parts F = some [w]) :
      Issued F (.posts list) [.act (.setValue w.path w.value)]
  | userOnly {user comments userDict} (parts : (WriteArgs.details user comments).parts F = none)
      (converted : asDictionary F user.encode = some userDict) :
      Issued F (.details user comments)
        [.act (.setValue (userConfiguration user.userId).node userDict),
          .complete (.failure (.apiDatabase .conversionError))]
  | both {user comments userDict v w} (parts : (WriteArgs.details user comments).parts F = some [v,w])
      (converted : asDictionary F user.encode = some userDict) :
      Issued F (.details user comments) [.act (.setValue v.path v.value),.act (.setValue w.path w.value)]

theorem issued (F : Foundation Data) (args : WriteArgs) : Issued F args (args.write F) := by
  cases args with
  | posts list =>
    simp only [WriteArgs.write,writePosts]
    cases converted : asArray F (encodeArray Post.encode list) with
    | none => exact .nothing (by simp [WriteArgs.parts,converted]) (fun _ _ same => by cases same)
    | some array =>
      exact .posts (w := ⟨postsConfiguration.node,array⟩) (by simp [WriteArgs.parts,converted])
  | details user comments =>
    simp only [WriteArgs.write,writePostDetails]
    cases converted : asDictionary F user.encode with
    | none =>
      refine .nothing (by simp [WriteArgs.parts,converted]) (fun _ _ same => ?_)
      cases same
      exact converted
    | some userDict =>
      cases first : comments.head? with
      | none => exact .userOnly (by simp [WriteArgs.parts,converted,first]) converted
      | some firstComment =>
        cases array : asArray F (encodeArray Comment.encode comments) with
        | none => exact .userOnly (by simp [WriteArgs.parts,converted,first,array]) converted
        | some commentsArray =>
          exact .both (v := ⟨(userConfiguration user.userId).node,userDict⟩)
            (w := ⟨(commentsConfiguration firstComment.postId).node,commentsArray⟩)
            (by simp [WriteArgs.parts,converted,first,array]) converted

def Written (F : Foundation Data) (args : WriteArgs) (s : WriteLog) : Prop :=
  ∃ writes, args.parts F = some writes ∧ s = writes.map (⟨·,some none⟩)

/- One completion, not before the last acknowledgement, that tells the truth. -/
structure Honours (F : Foundation Data) (args : WriteArgs) (events : List Acknowledgement)
    (i : WriteCall) : Prop where
  last : ∀ before, before <+: events → ∀ j, (databaseWrites F).exec args before = some (.ok j) →
    j.delivered ≠ [] → ∀ e, acknowledge j.state e = none
  once : ∃ response, i.delivered = [response] ∧ (response = .success true ↔ Written F args i.state) ∧
    ((∃ error, response = .failure error) ↔ ¬ Written F args i.state)

theorem nothingHonours {F : Foundation Data} {args : WriteArgs} {events : List Acknowledgement}
    {i : WriteCall} {error : SwiftError}
    (ran : (databaseWrites F).exec args events = some (.ok i)) (settled : ∀ e, acknowledge i.state e = none)
    (parts : args.parts F = none) (out : args.write F = [.complete (.failure error)]) :
    Honours F args events i := by
  have unwritten : ¬ Written F args i.state := by
    rintro ⟨writes,some,_⟩
    rw [parts] at some
    cases some
  have none := writesSettled ran settled
  rw [out] at none
  have idle := List.length_eq_zero_iff.mp none
  subst idle
  refine ⟨fun before early j ranJ _ => ?_,.failure error,by rw [(writesRun ran).answers,out]; rfl,?_,?_⟩
  · cases List.prefix_nil.mp early
    cases Except.ok.inj (Option.some.inj (ran.symm.trans ranJ))
    exact settled
  · simpa using unwritten
  · simpa using unwritten

theorem loneVerdict {out : List (Effect Action (ResponseType Bool))} {events : List Acknowledgement}
    {t : Tentative SwiftError} {delivered : List (ResponseType Bool)}
    (agrees : WritesAgree out events [t] delivered) {e : Acknowledgement} (member : e ∈ events) :
    t.verdict = some e.error := by
  obtain ⟨u,found,given⟩ := (agrees.verdicts e).mp member
  cases List.mem_singleton.mp (List.mem_iff_getElem?.mpr ⟨_,found⟩)
  exact given

theorem postsHonours {F : Foundation Data} {list : List Post} {events : List Acknowledgement} {w : Write}
    {i : WriteCall} (ran : (databaseWrites F).exec (.posts list) events = some (.ok i))
    (settled : ∀ e, acknowledge i.state e = none) (parts : (WriteArgs.posts list).parts F = some [w])
    (out : (WriteArgs.posts list).write F = [.act (.setValue w.path w.value)]) :
    Honours F (.posts list) events i := by
  have lone : ∀ {before : List Acknowledgement} {j : WriteCall},
      (databaseWrites F).exec (.posts list) before = some (.ok j) → ∃ t, j.state = [t] ∧ t.write = w := by
    intro before j ranJ
    have same := (writesRun ranJ).issued
    rw [out] at same
    exact List.map_eq_singleton_iff.mp same
  have one := writesSettled ran settled
  rw [out] at one
  obtain ⟨e,rfl⟩ := List.length_eq_one_iff.mp one
  obtain ⟨t,state,write⟩ := lone ran
  have agrees := writesRun ran
  rw [state] at agrees
  have verdict := loneVerdict agrees (List.mem_singleton_self e)
  have written : Written F (.posts list) i.state ↔ e.error = none := by
    simp only [Written,parts,Option.some.injEq,exists_eq_left',List.map_cons,List.map_nil,state,
      List.cons.injEq,and_true]
    constructor
    · intro same
      rw [same] at verdict
      exact (Option.some.inj verdict).symm
    · intro accepted
      rw [accepted] at verdict
      rw [← write,← verdict]
  refine ⟨fun before _ j ranJ spoken => ?_,e.response,?_,?_,?_⟩
  · obtain ⟨u,stateJ,_⟩ := lone ranJ
    have agreesJ := writesRun ranJ
    rw [stateJ] at agreesJ ⊢
    cases before with
    | nil => exact absurd (by rw [agreesJ.answers,out]; rfl) spoken
    | cons first rest =>
      refine acknowledgeIdle.mpr (fun v member => ?_)
      cases List.mem_singleton.mp member
      rw [loneVerdict agreesJ (List.mem_cons_self)]
      rfl
  · rw [agrees.answers,out]
    rfl
  · rw [written,Acknowledgement.response]
    cases e.error <;> simp
  · rw [written]
    simp only [failureResponse]
    exact Option.ne_none_iff_exists'.symm

theorem detailsTwice {F : Foundation Data} {user : User} {comments : List Comment}
    {events : List Acknowledgement}
    {i : WriteCall} {userDict : Json}
    (ran : (databaseWrites F).exec (.details user comments) events = some (.ok i))
    (settled : ∀ e, acknowledge i.state e = none) (converted : asDictionary F user.encode = some userDict) :
    i.delivered.length = 2 := by
  have length := writesSettled ran settled
  rw [(writesRun ran).answers,List.length_append,List.length_map,length]
  have known := issued F (.details user comments)
  generalize (WriteArgs.details user comments).write F = out at known
  cases known with
  | nothing _ unconverted =>
    rw [unconverted user comments rfl] at converted
    cases converted
  | userOnly _ _ => rfl
  | both _ _ => rfl

/- Nothing joins the two acknowledgements, nor the early return with the first of them. -/
theorem writesReport (F : Foundation Data) {args : WriteArgs} {events : List Acknowledgement}
    {result : Except Trap WriteCall}
    (ran : (databaseWrites F).exec args events = some result) :
    ∃ i, result = .ok i ∧ ((∀ e, acknowledge i.state e = none) → (Honours F args events i ↔
      ∀ user comments, args = .details user comments → asDictionary F user.encode = none)) := by
  obtain ⟨i,rfl⟩ := writesAlive ran
  refine ⟨i,rfl,fun settled => ⟨fun honours user comments same => ?_,fun unconverted => ?_⟩⟩
  · subst same
    cases converted : asDictionary F user.encode with
    | none => rfl
    | some userDict =>
      obtain ⟨response,one,_⟩ := honours.once
      -- both completion blocks call the one completion
      have two := detailsTwice ran settled converted
      rw [one] at two
      cases two
  · have known := issued F args
    generalize out : args.write F = effects at known
    cases known with
    | nothing parts _ => exact nothingHonours ran settled parts out
    | posts parts => exact postsHonours ran settled parts out
    | @userOnly user comments _ _ converted | @both user comments _ _ _ _ converted =>
      rw [unconverted user comments rfl] at converted
      cases converted

def refusal : SwiftError := .external "Permission denied"

theorem refusedPostsReported : ∃ i, (databaseWrites plainFoundation).exec (.posts [samplePost 2])
      [⟨0,some refusal⟩] = some (.ok i) ∧ i.delivered = [.failure refusal] ∧
    Honours plainFoundation (.posts [samplePost 2]) [⟨0,some refusal⟩] i := by
  obtain ⟨i,same,honours⟩ := writesReport plainFoundation
    (show (databaseWrites plainFoundation).exec (.posts [samplePost 2]) [⟨0,some refusal⟩] = some _ from rfl)
  cases same
  exact ⟨_,rfl,rfl,(honours (acknowledgeIdle.mpr (by decide))).mpr nofun⟩

theorem detailsReportTwice : ∃ i, (databaseWrites plainFoundation).exec
      (.details (sampleUser 1) [sampleComment 2 1]) [⟨0,none⟩,⟨1,some refusal⟩] = some (.ok i) ∧
    (∀ e, acknowledge i.state e = none) ∧ i.delivered = [.success true,.failure refusal] ∧
    ¬ Honours plainFoundation (.details (sampleUser 1) [sampleComment 2 1])
      [⟨0,none⟩,⟨1,some refusal⟩] i := by
  refine ⟨_,rfl,acknowledgeIdle.mpr (by decide),rfl,fun honours => ?_⟩
  obtain ⟨response,one,_⟩ := honours.once
  cases one

/- A conversion may fail, but one that succeeds keeps the value. -/
structure Foundation.Exact (F : Foundation Data) : Prop where
  converted : ∀ j data k, F.encode j = some data → F.jsonObject data = some k → Same j k

theorem asDictionaryExact {F : Foundation Data} (exact : F.Exact) {encoded object : Json}
    (converted : asDictionary F encoded = some object) : Same encoded object := by
  simp only [asDictionary,bind,Option.bind_eq_some_iff] at converted
  obtain ⟨data,encodes,read,parses,last⟩ := converted
  split at last <;> try contradiction
  cases Option.some.inj last
  exact exact.converted _ _ _ encodes parses

theorem asArrayExact {F : Foundation Data} (exact : F.Exact) {encoded object : Json}
    (converted : asArray F encoded = some object) : Same encoded object := by
  simp only [asArray,bind,Option.bind_eq_some_iff] at converted
  obtain ⟨data,encodes,read,parses,last⟩ := converted
  split at last <;> try contradiction
  cases Option.some.inj last
  exact exact.converted _ _ _ encodes parses

theorem holdsSame {store : Store σ} {before after : σ} {p : Path} {decode : Json → Option α} {value : Option α}
    (same : store.value p after = store.value p before) (holds : Holds store before p decode value) :
    Holds store after p decode value := by
  cases value with
  | none => exact same.trans holds
  | some x =>
    obtain ⟨v,found,container,decoded⟩ := holds
    exact ⟨v,same.trans found,container,decoded⟩

def NodeWritten (store : Store σ) (before after : σ) (p : Path) (decode : Json → Option α) (x : α) :
    Option SwiftError → Prop
  | none => Holds store after p decode (some x)
  | some _ => store.value p after = store.value p before

theorem nodeWritten {store : Store σ} (stores : store.Lawful) {decode : Json → Option α}
    (respects : Respects decode) {t : Tentative SwiftError} {error : Option SwiftError}
    (verdict : t.verdict = some error) (earlier later : WriteLog)
    (apart : ∀ u ∈ earlier ++ later, Independent u.write.path t.write.path) {x : α}
    (storable : Storable t.write.value) (container : t.write.value.isContainer = true)
    (decoded : decode t.write.value = some x) (db : σ) :
    NodeWritten store db (visible store db (earlier ++ t :: later)) t.write.path decode x error := by
  cases error with
  | none =>
    have kept : t.refused = false := by simp [Tentative.refused,verdict]
    have written : Holds store (store.setValue t.write.path t.write.value (visible store db earlier))
        t.write.path decode (some x) := holdsWritten stores respects _ storable container decoded
    refine holdsSame ?_ written
    rw [visibleAppend]
    exact visibleKept stores kept (fun u member => Or.inr (apart u (List.mem_append_right _ member))) _
  | some error =>
    refine visibleUntouched stores (fun u member => ?_) db
    rcases List.mem_append.mp member with inside | inside
    · exact Or.inr (apart u (List.mem_append_left _ inside))
    · rcases List.mem_cons.mp inside with rfl | after
      · exact Or.inl (by simp [Tentative.refused,verdict])
      · exact Or.inr (apart u (List.mem_append_right _ after))

theorem bothAcknowledged {F : Foundation Data} {args : WriteArgs} {events : List Acknowledgement}
    {i : WriteCall} {v w : Write}
    (ran : (databaseWrites F).exec args events = some (.ok i)) (settled : ∀ e, acknowledge i.state e = none)
    (out : args.write F = [.act (.setValue v.path v.value),.act (.setValue w.path w.value)]) :
    ∃ first second, ⟨0,first⟩ ∈ events ∧ ⟨1,second⟩ ∈ events ∧
      i.state = [⟨v,some first⟩,⟨w,some second⟩] ∧
      ∀ error, .failure error ∈ i.delivered → first = some error ∨ second = some error := by
  have agrees := writesRun ran
  have writes := agrees.issued
  rw [out] at writes
  obtain ⟨t,rest,state,writeT,others⟩ := List.map_eq_cons_iff.mp writes
  obtain ⟨u,rfl,writeU⟩ := List.map_eq_singleton_iff.mp others
  have closed := acknowledgeIdle.mp settled
  rw [state] at closed
  obtain ⟨first,given⟩ := Option.isSome_iff_exists.mp (closed t (by simp))
  obtain ⟨second,answered⟩ := Option.isSome_iff_exists.mp (closed u (by simp))
  refine ⟨first,second,(agrees.verdicts _).mpr ⟨t,by rw [state]; rfl,given⟩,
    (agrees.verdicts _).mpr ⟨u,by rw [state]; rfl,answered⟩,?_,?_⟩
  · rw [state,← given,← answered]
    obtain ⟨_,_⟩ := t
    obtain ⟨_,_⟩ := u
    cases writeT
    cases writeU
    rfl
  · intro error reported
    rw [agrees.answers,out] at reported
    obtain ⟨e,member,answer⟩ := List.mem_map.mp reported
    obtain ⟨r,found,verdict⟩ := (agrees.verdicts e).mp member
    rw [← failureResponse.mp answer]
    rw [state] at found
    rcases List.mem_pair.mp (List.mem_iff_getElem?.mpr ⟨_,found⟩) with rfl | rfl
    · exact Or.inl (Option.some.inj (given.symm.trans verdict))
    · exact Or.inr (Option.some.inj (answered.symm.trans verdict))

def AllOrNothing (store : Store σ) (before after : σ) (user : User) (comments : List Comment) : Prop :=
  (∃ first, comments.head? = some first ∧
    Holds store after (userConfiguration user.userId).node User.decode (some user) ∧
    Holds store after (commentsConfiguration first.postId).node (decodeArray Comment.decode)
      (some comments)) ∨ after = before

theorem detailsWrittenApart {F : Foundation Data} (exact : F.Exact) {store : Store σ} (stores : store.Lawful)
    (db : σ) {user : User} {comments : List Comment} {events : List Acknowledgement}
    {result : Except Trap WriteCall}
    (ran : (databaseWrites F).exec (.details user comments) events = some result) :
    ∃ i, result = .ok i ∧ ((∀ e, acknowledge i.state e = none) →
      (asDictionary F user.encode = none → visible store db i.state = db) ∧
      (∀ first userDict commentsArray, asDictionary F user.encode = some userDict →
        comments.head? = some first → asArray F (encodeArray Comment.encode comments) = some commentsArray →
        ∃ userError commentsError, ⟨0,userError⟩ ∈ events ∧ ⟨1,commentsError⟩ ∈ events ∧
          NodeWritten store db (visible store db i.state) (userConfiguration user.userId).node
            User.decode user userError ∧
          NodeWritten store db (visible store db i.state) (commentsConfiguration first.postId).node
            (decodeArray Comment.decode) comments commentsError ∧
          (∀ p, Independent (userConfiguration user.userId).node p →
            Independent (commentsConfiguration first.postId).node p →
            store.value p (visible store db i.state) = store.value p db) ∧
          ((userError = none ↔ commentsError = none) →
            AllOrNothing store db (visible store db i.state) user comments) ∧
          ∀ error, .failure error ∈ i.delivered → userError = some error ∨ commentsError = some error)) := by
  obtain ⟨i,rfl⟩ := writesAlive ran
  refine ⟨i,rfl,fun settled => ⟨fun unconverted => ?_,?_⟩⟩
  · have out : (WriteArgs.details user comments).write F =
        [.complete (.failure (.apiDatabase .conversionError))] := by
      simp only [WriteArgs.write,writePostDetails,unconverted]
    have none := (writesRun ran).issued
    rw [out] at none
    rw [List.map_eq_nil_iff.mp none]
    rfl
  · intro first userDict commentsArray converted head convertedList
    have out : (WriteArgs.details user comments).write F =
        [.act (.setValue (userConfiguration user.userId).node userDict),
          .act (.setValue (commentsConfiguration first.postId).node commentsArray)] := by
      simp only [WriteArgs.write,writePostDetails,converted,head,convertedList]
      rfl
    obtain ⟨userError,commentsError,userGiven,commentsGiven,state,reports⟩ :=
      bothAcknowledged (v := ⟨_,_⟩) (w := ⟨_,_⟩) ran settled out
    have inhabited : comments ≠ [] := by
      rintro rfl
      cases head
    have sameUser := asDictionaryExact exact converted
    have sameList := asArrayExact exact convertedList
    have userWritten : NodeWritten store db (visible store db i.state) (userConfiguration user.userId).node
        User.decode user userError := by
      rw [state]
      refine nodeWritten stores respectsUser rfl [] [_] (fun u member => ?_)
        (storableSame (storableUser user) sameUser) (sameContainer sameUser ▸ rfl)
        (respectsUser _ _ sameUser ▸ decodeUser user) db
      cases List.mem_singleton.mp member
      exact (userComments _ _).symm
    have commentsWritten : NodeWritten store db (visible store db i.state)
        (commentsConfiguration first.postId).node (decodeArray Comment.decode) comments commentsError := by
      rw [state]
      refine nodeWritten stores (respectsArray respectsComment) rfl [_] [] (fun u member => ?_)
        (storableSame (storableArray storableComment inhabited) sameList) (sameContainer sameList ▸ rfl)
        (respectsArray respectsComment _ _ sameList ▸ decodeEncodedArray decodeComment comments) db
      cases List.mem_singleton.mp member
      exact userComments _ _
    refine ⟨userError,commentsError,userGiven,commentsGiven,userWritten,commentsWritten,?_,?_,reports⟩
    · intro p userApart commentsApart
      rw [state]
      refine visibleUntouched stores (fun t member => Or.inr ?_) db
      rcases List.mem_pair.mp member with rfl | rfl
      · exact userApart
      · exact commentsApart
    · intro together
      cases userError with
      | none =>
        cases together.mp rfl
        exact Or.inl ⟨first,head,userWritten,commentsWritten⟩
      | some _ =>
        cases commentsError with
        | none => cases together.mpr rfl
        | some _ =>
          right
          rw [state]
          refine visibleRefused store db (fun t member => ?_)
          rcases List.mem_pair.mp member with rfl | rfl <;> rfl

theorem refusedUserWrittenApart : ∃ i, (databaseWrites plainFoundation).exec
      (.details (sampleUser 1) [sampleComment 2 1]) [⟨1,none⟩,⟨0,some refusal⟩] = some (.ok i) ∧
    NodeWritten keyTree keyTree.empty (visible keyTree keyTree.empty i.state)
      (userConfiguration 1).node User.decode (sampleUser 1) (some refusal) ∧
    NodeWritten keyTree keyTree.empty (visible keyTree keyTree.empty i.state)
      (commentsConfiguration 2).node (decodeArray Comment.decode) [sampleComment 2 1] none := by
  obtain ⟨i,same,apart⟩ := detailsWrittenApart ⟨fun j data k encoded read => by
      cases encoded
      cases read
      exact sameRefl j⟩ keyTreeLawful keyTree.empty
    (show (databaseWrites plainFoundation).exec (.details (sampleUser 1) [sampleComment 2 1])
      [⟨1,none⟩,⟨0,some refusal⟩] = some _ from rfl)
  cases same
  obtain ⟨userError,commentsError,userGiven,commentsGiven,user,comments,_⟩ :=
    (apart (acknowledgeIdle.mpr (by decide))).2 (sampleComment 2 1) _ _ rfl rfl rfl
  obtain rfl : userError = some refusal := by simpa using userGiven
  obtain rfl : commentsError = none := by simpa using commentsGiven
  exact ⟨_,rfl,user,comments⟩

/- The user is accepted, the comments are refused: half of the details are stored. -/
theorem refusedCommentsHalfWritten : ∃ i, (databaseWrites plainFoundation).exec
      (.details (sampleUser 1) [sampleComment 2 1]) [⟨1,some refusal⟩,⟨0,none⟩] = some (.ok i) ∧
    (∀ e, acknowledge i.state e = none) ∧ i.delivered = [.failure refusal,.success true] ∧
    ¬ AllOrNothing keyTree keyTree.empty (visible keyTree keyTree.empty i.state) (sampleUser 1)
      [sampleComment 2 1] := by
  refine ⟨_,rfl,acknowledgeIdle.mpr (by decide),rfl,?_⟩
  rintro (⟨first,head,_,v,found,_⟩ | same)
  · cases head
    cases found
  · cases same

end BabylonHealthDemo
