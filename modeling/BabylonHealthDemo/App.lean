import BabylonHealthDemo.PostsTable

/-! The app as a whole: the posts screen over the data provider, on one main queue.
A block of the screen starts the retrievals it asks for, and a block of the provider
that completes a retrieval hands the response to the screen before it returns. Seen
from one side a run of the app is a run of the provider, from the other side it is
a run of the screen, and request by request the two agree. -/
namespace BabylonHealthDemo
open JsonTree PathStore Callbacks

structure App where
  provider : Provider
  screen : ScreenRun

inductive AppEvent (Data : Type) where
  | didSelectRow (row : Nat)
  | hud (event : HUDEvent)
  | block (call : Nat) (event : CallEvent Data)

namespace App

def new : App := ⟨.empty,⟨(),⟨[],.sharedView,.new⟩,[]⟩⟩

def provide (F : Foundation Data) (s : App) (e : ProviderEvent Data) : Option App := do
  let provider ← s.provider.step (dataProvider F) e
  let screen ← Steps.run (fun screen d => (PostsScreen.respond screen d.1 d.2).map Prod.fst)
    s.screen.state (s.provider.news e provider)
  some ⟨provider,⟨(),screen,s.screen.delivered⟩⟩

def take (F : Foundation Data) (s : App) (block : ScreenBlock) : Option App :=
  Steps.run (provide F) ⟨s.provider,⟨(),block.1,s.screen.delivered ++ completions block.2⟩⟩
    ((actions block.2).map .spawn)

def launch (F : Foundation Data) : Option App := new.take F PostsScreen.viewDidLoad

/- After a trap the process is gone. -/
def step (F : Foundation Data) (s : App) (e : AppEvent Data) : Option App :=
  if s.provider.trap.isSome then none else match e with
  | .didSelectRow row => (s.screen.state.didSelectRowAt row).bind (s.take F)
  | .hud e => (s.screen.state.runLoop e).bind (s.take F)
  | .block call e => s.provide F (.step call e)

def run (F : Foundation Data) (events : List (AppEvent Data)) : Option App :=
  (launch F).bind (fun s => Steps.run (step F) s events)

def provided (s : App) : AppEvent Data → List (ProviderEvent Data)
  | .didSelectRow row => ((s.screen.state.didSelectRowAt row).elim [] (fun block => actions block.2)).map .spawn
  | .hud e => ((s.screen.state.runLoop e).elim [] (fun block => actions block.2)).map .spawn
  | .block call e => [.step call e]

def seen (F : Foundation Data) (s : App) : AppEvent Data → List ScreenEvent
  | .didSelectRow row => [.didSelectRow row]
  | .hud e => [.hud e]
  | .block call e => (s.provider.step (dataProvider F) (.step call e)).elim [] (fun next =>
      (s.provider.news (.step call e) next).map (fun d => .response d.1 d.2))

end App

def providerEvents (F : Foundation Data) (events : List (AppEvent Data)) : List (ProviderEvent Data) :=
  .spawn .retrieveAllPosts :: (App.launch F).elim [] (fun s => Steps.watch (App.step F) App.provided s events)

def screenEvents (F : Foundation Data) (events : List (AppEvent Data)) : List ScreenEvent :=
  (App.launch F).elim [] (fun s => Steps.watch (App.step F) (App.seen F) s events)

/- Request k of the screen is call k of the provider, and is answered when that is. -/
structure Paired (requests : List ScreenRequest) (instances : List (Instance CallArgs CallState CallResponse)) :
    Prop where
  count : requests.length = instances.length
  each : ∀ (k : Nat) (asked : ScreenRequest) (i : Instance CallArgs CallState CallResponse),
    requests[k]? = some asked → instances[k]? = some i →
    asked.call.retrieval = i.args ∧ asked.answered = !i.delivered.isEmpty

theorem pairedSpawn {requests : List ScreenRequest} {instances : List (Instance CallArgs CallState CallResponse)}
    (paired : Paired requests instances) (call : ScreenCall) (state : CallState) :
    Paired (requests ++ [⟨call,false⟩]) (instances ++ [⟨call.retrieval,state,[]⟩]) := by
  refine ⟨by simp [paired.count],?_⟩
  intro k asked i foundAsked foundI
  rcases Nat.lt_or_ge k requests.length with old | new
  · rw [List.getElem?_append_left old] at foundAsked
    rw [List.getElem?_append_left (paired.count ▸ old)] at foundI
    exact paired.each k asked i foundAsked foundI
  · rw [List.getElem?_append_right new,List.getElem?_singleton] at foundAsked
    rw [List.getElem?_append_right (paired.count ▸ new),List.getElem?_singleton] at foundI
    split at foundAsked <;> try contradiction
    split at foundI <;> try contradiction
    cases foundAsked
    cases foundI
    exact ⟨rfl,rfl⟩

theorem pairedSet {requests : List ScreenRequest} {instances : List (Instance CallArgs CallState CallResponse)}
    (paired : Paired requests instances) {call : Nat} {asked : ScreenRequest}
    {i : Instance CallArgs CallState CallResponse} (foundAsked : requests[call]? = some asked)
    (foundI : instances[call]? = some i) (state : CallState) (delivered : List CallResponse) :
    Paired (requests.set call {asked with answered := !delivered.isEmpty})
      (instances.set call ⟨i.args,state,delivered⟩) := by
  refine ⟨by simp [paired.count],?_⟩
  intro k other j foundOther foundJ
  by_cases same : call = k
  · subst same
    rw [List.getElem?_set_self (List.getElem?_eq_some_iff.mp foundAsked).1] at foundOther
    rw [List.getElem?_set_self (List.getElem?_eq_some_iff.mp foundI).1] at foundJ
    cases foundOther
    cases foundJ
    exact ⟨(paired.each call asked i foundAsked foundI).1,rfl⟩
  · rw [List.getElem?_set_ne same] at foundOther foundJ
    exact paired.each k other j foundOther foundJ

structure AppAgrees (F : Foundation Data) (ps : List (ProviderEvent Data)) (ss : List ScreenEvent) (s : App) :
    Prop where
  provider : Pool.run (dataProvider F) ps = some s.provider
  screen : postsViewController.exec () ss = some (.ok s.screen)
  paired : Paired s.screen.state.requests s.provider.instances
  responses : ∀ call response, .response call response ∈ ss ↔ response ∈ s.provider.deliveredBy call

theorem silentStart {F : Foundation Data} {w : Provider} (alive : w.trap = none) (args : CallArgs) :
    ∃ state log, w.step (dataProvider F) (.spawn args) =
      some ⟨w.instances ++ [⟨args,state,[]⟩],log,none⟩ := by
  obtain ⟨state,out,started,silent,_⟩ := callStarts F args
  exact ⟨state,_,by simp only [Pool.step,alive,started,silent]; rfl⟩

theorem answerCaptured {F : Foundation Data} {call : ScreenCall} {a : CallAnswers} {state : CallState}
    {delivered : List CallResponse} (agrees : CallAgrees F call.retrieval a state delivered)
    {response : CallResponse} (member : response ∈ delivered) :
    ∃ completion, call.completion response = some completion := by
  generalize same : call.retrieval = args at agrees
  cases agrees with
  | posts agrees =>
    obtain ⟨r,_,rfl⟩ := List.mem_map.mp member
    cases call with
    | displayPosts => exact ⟨_,rfl⟩
    | didSelectPostCell post => cases same
  | details agrees =>
    obtain ⟨r,_,rfl⟩ := List.mem_map.mp member
    cases call with
    | displayPosts => cases same
    | didSelectPostCell post => exact ⟨_,rfl⟩

theorem deliveredAt {w : Provider} {call : Nat} {i : Instance CallArgs CallState CallResponse}
    (found : w.instances[call]? = some i) : w.deliveredBy call = i.delivered := by
  simp [Pool.deliveredBy,found]

theorem retrieveAgrees {F : Foundation Data} {ps : List (ProviderEvent Data)} {ss : List ScreenEvent}
    {w : Provider} {i : ScreenRun} (ran : Pool.run (dataProvider F) ps = some w) (alive : w.trap = none)
    (paired : Paired i.state.requests w.instances)
    (responses : ∀ call response, .response call response ∈ ss ↔ response ∈ w.deliveredBy call)
    (call : ScreenCall)
    (screen : postsViewController.exec () ss = some (.ok ⟨(),(i.state.retrieve call).1,i.delivered⟩)) :
    ∃ next, App.take F ⟨w,i⟩ (i.state.retrieve call) = some next ∧
      AppAgrees F (ps ++ [.spawn call.retrieval]) ss next ∧ next.provider.trap = none ∧
      next.screen = ⟨(),(i.state.retrieve call).1,i.delivered⟩ := by
  obtain ⟨state,log,started⟩ := silentStart (F := F) alive call.retrieval
  have quiet : w.news (.spawn call.retrieval : ProviderEvent Data)
      ⟨w.instances ++ [⟨call.retrieval,state,[]⟩],log,none⟩ = [] := newsSpawned w call.retrieval state [] log
  refine ⟨⟨⟨w.instances ++ [⟨call.retrieval,state,[]⟩],log,none⟩,⟨(),(i.state.retrieve call).1,i.delivered⟩⟩,
    ?_,⟨?_,screen,?_,?_⟩,rfl,rfl⟩
  · simp only [App.take,PostsScreen.retrieve,actionsAct,actionsNil,List.map_cons,List.map_nil,
      Steps.runSingle,App.provide,started,bind,Option.bind_some,quiet,Steps.runNil,completionsAct,
      completionsNil,List.append_nil]
  · rw [runSnoc,ran]
    exact started
  · exact pairedSpawn paired call state
  · intro k response
    rw [responses,deliveredBySpawned]

theorem screenContinues {ss : List ScreenEvent} {i : ScreenRun} {e : ScreenEvent} {s : PostsScreen}
    {out : List (Effect CallArgs Handling)} (ran : postsViewController.exec () ss = some (.ok i))
    (stepped : postsViewController.step i.state e = some (.ok (s,out))) :
    postsViewController.exec () (ss ++ [e]) = some (.ok ⟨(),s,i.delivered ++ completions out⟩) := by
  rw [Machine.execSnoc,ran]
  simp only [Machine.advance,stepped,Option.map_some,Except.map]

theorem launched (F : Foundation Data) :
    ∃ s, App.launch F = some s ∧ AppAgrees F [.spawn .retrieveAllPosts] [] s ∧ s.provider.trap = none := by
  have ran : Pool.run (dataProvider F) [] = some .empty := rfl
  have screen : postsViewController.exec () [] =
      some (.ok ⟨(),(App.new.screen.state.retrieve .displayPosts).1,App.new.screen.delivered⟩) := rfl
  obtain ⟨next,taken,agrees,alive,_⟩ := retrieveAgrees ran rfl ⟨rfl,by simp [App.new]⟩
    (by simp [Pool.deliveredBy,Pool.empty]) .displayPosts screen
  exact ⟨next,taken,agrees,alive⟩

theorem quietAgrees {F : Foundation Data} {ps : List (ProviderEvent Data)} {ss : List ScreenEvent} {s : App}
    (agrees : AppAgrees F ps ss s) {call : Nat} {e : CallEvent Data} {provider : Provider}
    (stepped : s.provider.step (dataProvider F) (.step call e) = some provider)
    (quiet : s.provider.news (.step call e) provider = [])
    (paired : Paired s.screen.state.requests provider.instances)
    (same : ∀ k, provider.deliveredBy k = s.provider.deliveredBy k) :
    s.provide F (.step call e) = some ⟨provider,s.screen⟩ ∧
      AppAgrees F (ps ++ [.step call e]) (ss ++ []) ⟨provider,s.screen⟩ := by
  refine ⟨?_,?_,?_,paired,?_⟩
  · simp only [App.provide,stepped,bind,Option.bind_some,quiet,Steps.runNil]
  · rw [runSnoc,agrees.provider]
    exact stepped
  · rw [List.append_nil]
    exact agrees.screen
  · intro k response
    rw [List.append_nil,same]
    exact agrees.responses k response

theorem answerAgrees {F : Foundation Data} {ps : List (ProviderEvent Data)} {ss : List ScreenEvent} {s : App}
    (agrees : AppAgrees F ps ss s) {call : Nat} {e : CallEvent Data}
    {i : Instance CallArgs CallState CallResponse} (found : s.provider.instances[call]? = some i)
    {state : CallState} {out : List (Effect Action CallResponse)} {response : CallResponse}
    (fresh : i.delivered = []) (one : completions out = [response])
    (block : (dataProvider F).step i.state e = some (.ok (state,out)))
    (alive : s.provider.trap = none) :
    ∃ next, s.provide F (.step call e) = some next ∧ next.provider.trap = none ∧
      s.provider.step (dataProvider F) (.step call e) = some next.provider ∧
      s.provider.news (.step call e) next.provider = [(call,response)] ∧
      AppAgrees F (ps ++ [.step call e]) (ss ++ [.response call response]) next := by
  obtain ⟨a,callAgrees⟩ := instanceAgrees agrees.provider (List.mem_iff_getElem?.mpr ⟨call,found⟩)
  have inside : call < s.screen.state.requests.length := by
    rw [agrees.paired.count]
    exact (List.getElem?_eq_some_iff.mp found).1
  -- the request joined the screen in the block that started its call, and still waits
  have asks : s.screen.state.requests[call]? = some s.screen.state.requests[call] :=
    List.getElem?_eq_getElem inside
  obtain ⟨retrieval,answered⟩ := agrees.paired.each call _ i asks found
  generalize s.screen.state.requests[call] = asked at asks retrieval answered
  rw [fresh] at answered
  cases callStepped callAgrees block with
  | ran agreesNext _ _ =>
    rw [fresh,one,List.nil_append,← retrieval] at agreesNext
    obtain ⟨completion,captured⟩ := answerCaptured agreesNext (List.mem_cons_self)
    have stepped : s.provider.step (dataProvider F) (.step call e) =
        some ⟨s.provider.instances.set call ⟨i.args,state,i.delivered ++ [response]⟩,
          s.provider.log ++ actions out,none⟩ := by
      rw [poolEnabled alive found block,one]
    have news := newsStepped found e state [response] (s.provider.log ++ actions out)
    obtain ⟨screen,responded,requests⟩ : ∃ screen, s.screen.state.respond call response = some (screen,[]) ∧
        screen.requests = s.screen.state.requests.set call {asked with answered := true} :=
      ⟨_,by simp [PostsScreen.respond,asks,captured,answered]; rfl,rfl⟩
    refine ⟨⟨_,⟨(),screen,s.screen.delivered⟩⟩,?_,rfl,stepped,news,?_,?_,?_,?_⟩
    · simp only [App.provide,stepped,bind,Option.bind_some,news,List.map_cons,List.map_nil,Steps.runSingle,
        responded,Option.map_some]
    · rw [runSnoc,agrees.provider]
      exact stepped
    · have screened := screenContinues (e := .response call response) agrees.screen
        (congrArg (Option.map Except.ok) responded)
      rw [completionsNil,List.append_nil] at screened
      exact screened
    · have kept := pairedSet agrees.paired asks found state [response]
      rw [fresh,requests]
      exact kept
    · intro k other
      rw [deliveredByStepped found,List.mem_append,agrees.responses]
      by_cases same : k = call
      · subst same
        simp
      · simp [same]

theorem pairedKept {requests : List ScreenRequest} {instances : List (Instance CallArgs CallState CallResponse)}
    (paired : Paired requests instances) {call : Nat} {i : Instance CallArgs CallState CallResponse}
    (found : instances[call]? = some i) (state : CallState) :
    Paired requests (instances.set call ⟨i.args,state,i.delivered⟩) := by
  have inside : call < requests.length := paired.count ▸ (List.getElem?_eq_some_iff.mp found).1
  have asks : requests[call]? = some requests[call] := List.getElem?_eq_getElem inside
  have kept := pairedSet paired asks found state i.delivered
  rw [← (paired.each call _ i asks found).2,List.set_getElem_self] at kept
  exact kept

theorem completedOnce {F : Foundation Data} {args : CallArgs} {a : CallAnswers} {state : CallState}
    {delivered new : List CallResponse} (agrees : CallAgrees F args a state (delivered ++ new)) :
    new = [] ∨ delivered = [] ∧ ∃ response, new = [response] := by
  rcases callDelivered agrees with none | one
  · exact Or.inl (List.append_eq_nil_iff.mp none).2
  · rcases List.append_eq_singleton_iff.mp one with ⟨fresh,answer⟩ | ⟨_,quiet⟩
    · exact Or.inr ⟨fresh,_,answer⟩
    · exact Or.inl quiet

theorem blockAgrees {F : Foundation Data} {ps : List (ProviderEvent Data)} {ss : List ScreenEvent} {s : App}
    (agrees : AppAgrees F ps ss s) {call : Nat} {e : CallEvent Data} {provider : Provider}
    (stepped : s.provider.step (dataProvider F) (.step call e) = some provider) :
    ∃ next, s.step F (.block call e) = some next ∧ next.provider = provider ∧
      AppAgrees F (ps ++ s.provided (.block call e)) (ss ++ s.seen F (.block call e)) next := by
  obtain ⟨alive,effect⟩ := poolStepCases stepped
  have enabled : ∀ next, s.provide F (.step call e) = some next → s.step F (.block call e) = some next := by
    intro next provided
    simp only [App.step,alive,Option.isSome_none,Bool.false_eq_true,if_false,provided]
  simp only [App.provided,App.seen,stepped,Option.elim_some]
  cases effect with
  | @stepTrap call i e t found trapped =>
    have quiet := newsTrap s.provider (PoolEvent.step call e) (some t)
    obtain ⟨provided,kept⟩ := quietAgrees agrees stepped quiet agrees.paired (fun _ => rfl)
    rw [quiet]
    exact ⟨_,enabled _ provided,rfl,kept⟩
  | @stepped call i e state out found block =>
    obtain ⟨a,callAgrees⟩ := instanceAgrees agrees.provider (List.mem_iff_getElem?.mpr ⟨call,found⟩)
    have news := newsStepped found e state (completions out) (s.provider.log ++ actions out)
    cases callStepped callAgrees block with
    | ran agreesNext _ _ =>
      rcases completedOnce agreesNext with silent | ⟨fresh,response,one⟩
      · rw [silent] at news stepped ⊢
        obtain ⟨provided,kept⟩ := quietAgrees agrees stepped news
          (by rw [List.append_nil]; exact pairedKept agrees.paired found state)
          (fun k => by rw [deliveredByStepped found]; simp)
        rw [news]
        exact ⟨_,enabled _ provided,rfl,kept⟩
      · obtain ⟨next,provided,_,same,answer,kept⟩ := answerAgrees agrees found fresh one block alive
        have reached := Option.some.inj (stepped.symm.trans same)
        rw [reached,answer]
        exact ⟨next,enabled _ provided,rfl,kept⟩

theorem hudTaken {F : Foundation Data} {s : App} (alive : s.provider.trap = none) {e : HUDEvent}
    {hud : ProgressHUD Handling} {ran : List Handling} (stepped : s.screen.state.hud.step e = some (hud,ran)) :
    ∃ block, s.screen.state.runLoop e = some block ∧ actions block.2 = [] ∧
      postsViewController.step s.screen.state (.hud e) = some (.ok block) ∧
      s.step F (.hud e) = some ⟨s.provider,⟨(),block.1,s.screen.delivered ++ completions block.2⟩⟩ ∧
      block.1 = {s.screen.state with
        hud := hud,
        view := ran.foldl (fun v h => h.completion.run v) s.screen.state.view} := by
  have looped : s.screen.state.runLoop e = some ({s.screen.state with
      hud := hud,
      view := ran.foldl (fun v h => h.completion.run v) s.screen.state.view},ran.map .complete) := by
    simp only [PostsScreen.runLoop,stepped,bind,Option.bind_some]
  refine ⟨_,looped,actionsMap ran,congrArg (Option.map Except.ok) looped,?_,rfl⟩
  simp only [App.step,alive,Option.isSome_none,Bool.false_eq_true,if_false,looped,Option.bind_some,App.take,
    actionsMap,List.map_nil,Steps.runNil]

theorem tapAgrees {F : Foundation Data} {ps : List (ProviderEvent Data)} {ss : List ScreenEvent}
    {s next : App} (agrees : AppAgrees F ps ss s) (alive : s.provider.trap = none) {row : Nat}
    (ok : (s.screen.state.didSelectRowAt row).bind (s.take F) = some next) :
    AppAgrees F (ps ++ s.provided (.didSelectRow row : AppEvent Data))
      (ss ++ s.seen F (.didSelectRow row : AppEvent Data)) next ∧ next.provider.trap = none := by
  obtain ⟨block,selected,taken⟩ := Option.bind_eq_some_iff.mp ok
  obtain ⟨post,found,rfl⟩ := Option.map_eq_some_iff.mp selected
  have screened := screenContinues (e := .didSelectRow row) agrees.screen
    (congrArg (Option.map Except.ok) selected)
  have responses : ∀ call response, .response call response ∈ ss ++ [.didSelectRow row] ↔
      response ∈ s.provider.deliveredBy call := by simpa using agrees.responses
  obtain ⟨after,ran,kept,live,_⟩ := retrieveAgrees agrees.provider alive agrees.paired responses
    (.didSelectPostCell post) (by simpa [PostsScreen.retrieve,PostsScreen.didSelectPostCell] using screened)
  cases Option.some.inj (taken.symm.trans ran)
  simp only [App.provided,App.seen,selected,Option.elim_some]
  exact ⟨kept,live⟩

theorem stepAlive {F : Foundation Data} {s next : App} {e : AppEvent Data} (ok : s.step F e = some next) :
    s.provider.trap = none := by
  cases trapped : s.provider.trap with
  | none => rfl
  | some t => simp [App.step,trapped] at ok

theorem hudSource {F : Foundation Data} {s next : App} (alive : s.provider.trap = none) {e : HUDEvent}
    (ok : (s.screen.state.runLoop e).bind (s.take F) = some next) :
    ∃ hud handled block, s.screen.state.hud.step e = some (hud,handled) ∧
      s.screen.state.runLoop e = some block ∧ actions block.2 = [] ∧
      postsViewController.step s.screen.state (.hud e) = some (.ok block) ∧
      next = ⟨s.provider,⟨(),block.1,s.screen.delivered ++ completions block.2⟩⟩ ∧
      block.1 = {s.screen.state with
        hud := hud,
        view := handled.foldl (fun v h => h.completion.run v) s.screen.state.view} := by
  obtain ⟨_,ran,_⟩ := Option.bind_eq_some_iff.mp ok
  simp only [PostsScreen.runLoop,bind,Option.bind_eq_some_iff] at ran
  obtain ⟨⟨hud,handled⟩,stepped,_⟩ := ran
  obtain ⟨block,looped,none,screened,taken,same⟩ := hudTaken (F := F) alive stepped
  simp only [App.step,alive,Option.isSome_none,Bool.false_eq_true,if_false] at taken
  exact ⟨hud,handled,block,stepped,looped,none,screened,Option.some.inj (ok.symm.trans taken),same⟩

theorem appStepped {F : Foundation Data} {ps : List (ProviderEvent Data)} {ss : List ScreenEvent}
    {s next : App} (agrees : AppAgrees F ps ss s) {e : AppEvent Data} (ok : s.step F e = some next) :
    AppAgrees F (ps ++ s.provided e) (ss ++ s.seen F e) next := by
  have alive := stepAlive ok
  simp only [App.step,alive,Option.isSome_none,Bool.false_eq_true,if_false] at ok
  cases e with
  | didSelectRow row => exact (tapAgrees agrees alive ok).1
  | hud e =>
    obtain ⟨_,_,block,_,looped,none,screened,rfl,same⟩ := hudSource alive ok
    have requests : block.1.requests = s.screen.state.requests := by rw [same]
    simp only [App.provided,App.seen,looped,Option.elim_some,none,List.map_nil,List.append_nil]
    refine ⟨agrees.provider,screenContinues agrees.screen screened,?_,by simpa using agrees.responses⟩
    rw [requests]
    exact agrees.paired
  | block call e =>
    obtain ⟨provider,stepped,_⟩ := Option.bind_eq_some_iff.mp ok
    obtain ⟨after,ran,_,kept⟩ := blockAgrees agrees stepped
    simp only [App.step,alive,Option.isSome_none,Bool.false_eq_true,if_false] at ran
    cases Option.some.inj (ok.symm.trans ran)
    exact kept

theorem appRun {F : Foundation Data} {events : List (AppEvent Data)} {s : App}
    (ran : App.run F events = some s) :
    AppAgrees F (providerEvents F events) (screenEvents F events) s := by
  obtain ⟨first,launch,agrees,_⟩ := launched F
  simp only [App.run,launch,Option.bind_some] at ran
  simp only [providerEvents,screenEvents,launch,Option.elim_some]
  refine Steps.history (fun events s => AppAgrees F
    (.spawn .retrieveAllPosts :: Steps.watch (App.step F) App.provided first events)
    (Steps.watch (App.step F) (App.seen F) first events) s) agrees ?_ ran
  intro events before e next found held stepped
  rw [Steps.watchSnoc found,Steps.watchSnoc found,← List.cons_append]
  exact appStepped held stepped

def AppEvent.blockOf (call : Nat) : AppEvent Data → Option (CallEvent Data)
  | .block other e => if other = call then some e else none
  | _ => none

theorem ownSpawns (call : Nat) (calls : List CallArgs) :
    own call (calls.map (.spawn : CallArgs → ProviderEvent Data)) = [] := by
  induction calls with
  | nil => rfl
  | cons args rest ih => exact ih

theorem ownProvided {F : Foundation Data} {events : List (AppEvent Data)} {s : App}
    (ran : App.run F events = some s) (call : Nat) :
    own call (providerEvents F events) = events.filterMap (AppEvent.blockOf call) := by
  obtain ⟨first,launch,_⟩ := launched F
  simp only [App.run,launch,Option.bind_some] at ran
  simp only [providerEvents,launch,Option.elim_some]
  refine Steps.history (fun events _ => own call (.spawn .retrieveAllPosts ::
    Steps.watch (App.step F) App.provided first events) = events.filterMap (AppEvent.blockOf call)) rfl ?_ ran
  intro events before e next found same _
  rw [Steps.watchSnoc found,← List.cons_append,ownAppend,same,List.filterMap_append]
  congr 1
  cases e with
  | didSelectRow row => exact ownSpawns call _
  | hud e => exact ownSpawns call _
  | block other e => rfl

/- A run of the app is a run of the provider and a run of the screen. Each request is
one call and gets that call's response and no other; and no block of the provider
ever finds the screen unprepared. -/
theorem appComposes (F : Foundation Data) {events : List (AppEvent Data)} {s : App}
    (ran : App.run F events = some s) :
    Pool.run (dataProvider F) (providerEvents F events) = some s.provider ∧
    (∀ call, own call (providerEvents F events) = events.filterMap (AppEvent.blockOf call)) ∧
    postsViewController.exec () (screenEvents F events) = some (.ok s.screen) ∧
    s.screen.state.requests.length = s.provider.instances.length ∧
    (∀ (k : Nat) asked i, s.screen.state.requests[k]? = some asked → s.provider.instances[k]? = some i →
      asked.call.retrieval = i.args ∧ (asked.answered = true ↔ i.delivered ≠ [])) ∧
    (∀ call response, .response call response ∈ screenEvents F events ↔
      response ∈ s.provider.deliveredBy call) ∧
    (∀ call e provider, s.provider.step (dataProvider F) (.step call e) = some provider →
      ∃ next, s.step F (.block call e) = some next ∧ next.provider = provider) := by
  have agrees := appRun ran
  refine ⟨agrees.provider,ownProvided ran,agrees.screen,agrees.paired.count,?_,agrees.responses,?_⟩
  · intro k asked i foundAsked foundI
    obtain ⟨retrieval,answered⟩ := agrees.paired.each k asked i foundAsked foundI
    exact ⟨retrieval,by rw [answered]; simp⟩
  · intro call e provider stepped
    obtain ⟨next,ranNext,same,_⟩ := blockAgrees agrees stepped
    exact ⟨next,ranNext,same⟩

def tappedEvents : List (AppEvent Json) := List.flatten
  [[.hud .operation,.block 0 (.posts (.reply ⟨some (encodeArray Post.encode [samplePost 2,samplePost 4]),none⟩)),
      .hud .operation,.hud (.wait Constants.hudDismissTime),.hud (.delayOver 0),.hud (.fadeOutEnded 0)],
    [.didSelectRow 1,.hud .operation,
      .block 1 (.details (.load (.commentsReply ⟨some (encodeArray Comment.encode [sampleComment 4 3]),none⟩))),
      .block 1 (.details (.load (.userReply ⟨some (encodeArray User.encode [sampleUser 1]),none⟩))),
      .block 1 (.details (.load .notify))],
    [.hud .operation,.hud (.wait Constants.hudDismissTime),.hud (.delayOver 0),.hud (.fadeOutEnded 0)]]

theorem tappedComposes : ∃ s, App.run plainFoundation tappedEvents = some s ∧
    s.screen.state.view =
      ⟨[samplePost 2,samplePost 4],[.make (samplePost 4) ⟨sampleUser 1,[sampleComment 4 3]⟩],[]⟩ ∧
    s.screen.state.requests.length = s.provider.instances.length := by
  have ran : App.run plainFoundation tappedEvents = some _ := rfl
  obtain ⟨_,_,_,count,_⟩ := appComposes plainFoundation ran
  exact ⟨_,ran,rfl,count⟩

end BabylonHealthDemo
