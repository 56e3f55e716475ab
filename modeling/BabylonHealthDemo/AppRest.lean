import BabylonHealthDemo.AppRuns
import BabylonHealthDemo.RetrievalBlocks

/-! The app comes to rest. Every tap pays for a fixed number of blocks, and every block
but the passing of time uses one of them up. Until each request is answered and the
HUD is settled there is always a block that needs neither the user nor the network
nor the database, so from any state the app finds its own way to rest. -/
namespace BabylonHealthDemo
open JsonTree PathStore Callbacks

namespace AppEvent

def waits : AppEvent Data → Bool
  | .hud e => e.waits
  | _ => false

def taps : AppEvent Data → Bool
  | .didSelectRow _ => true
  | _ => false

def Unattended : AppEvent Data → Prop
  | .didSelectRow _ => False
  | .hud _ => True
  | .block _ e => Unaided e

end AppEvent

def callBlocks (i : Instance CallArgs CallState CallResponse) : Nat :=
  i.state.blocks + if i.delivered.isEmpty then 3 else 0

def App.blocks (s : App) : Nat :=
  (s.provider.instances.map callBlocks).sum + s.screen.state.hud.blocks + s.provider.trap.isNone.toNat

theorem respondBlocks {s : PostsScreen} {request : Nat} {response : CallResponse} {block : ScreenBlock}
    (ok : s.respond request response = some block) : block.1.hud.blocks = s.hud.blocks + 3 := by
  simp only [PostsScreen.respond,bind,Option.bind_eq_some_iff] at ok
  obtain ⟨asked,_,completion,_,last⟩ := ok
  split at last <;> try contradiction
  cases Option.some.inj last
  exact dismissBlocks _ _ _

theorem newsBlocks {s last : PostsScreen} {news : List (Nat × CallResponse)}
    (ran : Steps.run (fun screen d => (PostsScreen.respond screen d.1 d.2).map Prod.fst) s news = some last) :
    last.hud.blocks = s.hud.blocks + 3*news.length := by
  refine Steps.history (fun news last => last.hud.blocks = s.hud.blocks + 3*news.length) rfl ?_ ran
  intro news before d next _ bound stepped
  obtain ⟨block,responded,rfl⟩ := Option.map_eq_some_iff.mp stepped
  rw [respondBlocks responded,bound,List.length_append,List.length_singleton]
  omega

theorem providerSpends {F : Foundation Data} {events : List (ProviderEvent Data)} {w next : Provider}
    (ran : Pool.run (dataProvider F) events = some w) {call : Nat} {e : CallEvent Data}
    (stepped : w.step (dataProvider F) (.step call e) = some next) :
    (next.instances.map callBlocks).sum + 3*(w.news (.step call e) next).length + next.trap.isNone.toNat <
      (w.instances.map callBlocks).sum + w.trap.isNone.toNat := by
  obtain ⟨alive,effect⟩ := poolStepCases stepped
  rw [alive]
  cases effect with
  | stepTrap _ _ =>
    rw [newsTrap]
    simp
  | @stepped call i e s out found block =>
    have less := blockSpends block
    have moved := weightStepped callBlocks found ⟨i.args,s,i.delivered ++ completions out⟩
    have spent : callBlocks ⟨i.args,s,i.delivered ++ completions out⟩ + 3*(completions out).length <
        callBlocks i := by
      obtain ⟨a,agrees⟩ := instanceAgrees ran (List.mem_iff_getElem?.mpr ⟨call,found⟩)
      cases callStepped agrees block with
      | ran agreesNext _ _ =>
        rcases completedOnce agreesNext with silent | ⟨fresh,response,one⟩
        · simpa [callBlocks,silent] using less
        · simp only [callBlocks,fresh,one,List.nil_append,List.isEmpty_nil,List.isEmpty_cons,
            List.length_singleton,Bool.false_eq_true,if_true,if_false]
          omega
    rw [newsStepped found,List.length_map]
    simp only [Option.isNone_none,Bool.toNat_true]
    omega

theorem retrieveBlocks {F : Foundation Data} {s next : App} (call : ScreenCall)
    (taken : s.take F (s.screen.state.retrieve call) = some next) :
    next.blocks ≤ s.blocks + call.retrieval.blocks + 4 := by
  simp only [App.take,PostsScreen.retrieve,actionsAct,actionsNil,List.map_cons,List.map_nil,Steps.runSingle,
    App.provide,bind,Option.bind_eq_some_iff] at taken
  obtain ⟨provider,stepped,screen,responded,last⟩ := taken
  cases Option.some.inj last
  obtain ⟨alive,effect⟩ := poolStepCases stepped
  cases effect with
  | spawnTrap trapped =>
    obtain ⟨_,_,started,_⟩ := callStarts F call.retrieval
    cases started.symm.trans trapped
  | @spawned args state out started =>
    obtain ⟨_,_,starts,silent,_⟩ := callStarts F call.retrieval
    cases started.symm.trans starts
    have bound := startBlocks started
    have queued := newsBlocks responded
    rw [newsSpawned,silent,List.map_nil,List.length_nil,showBlocks] at queued
    simp only [App.blocks,alive,queued,silent,callBlocks,List.map_append,List.sum_append,List.map_singleton,
      List.sum_singleton,List.isEmpty_nil,if_true,Option.isNone_none,Bool.toNat_true]
    omega

theorem appSpends {F : Foundation Data} {ps : List (ProviderEvent Data)} {ss : List ScreenEvent} {s next : App}
    (agrees : AppAgrees F ps ss s) {e : AppEvent Data} (ok : s.step F e = some next) :
    next.blocks + (!e.waits && !e.taps).toNat ≤ s.blocks + 12*e.taps.toNat := by
  have alive := stepAlive ok
  simp only [App.step,alive,Option.isSome_none,Bool.false_eq_true,if_false] at ok
  cases e with
  | didSelectRow row =>
    obtain ⟨block,selected,taken⟩ := Option.bind_eq_some_iff.mp ok
    obtain ⟨post,_,rfl⟩ := Option.map_eq_some_iff.mp selected
    have bound := retrieveBlocks (.didSelectPostCell post) taken
    simp only [ScreenCall.retrieval,CallArgs.blocks] at bound
    simp only [AppEvent.taps,Bool.not_true,Bool.and_false,Bool.toNat_false,Bool.toNat_true]
    omega
  | hud e =>
    obtain ⟨_,_,block,stepped,_,_,_,rfl,same⟩ := hudSource alive ok
    have spent := hudSpends stepped
    simp only [App.blocks,same,AppEvent.waits,AppEvent.taps,Bool.not_false,Bool.and_true,Bool.toNat_false]
    omega
  | block call e =>
    simp only [App.provide,bind,Option.bind_eq_some_iff] at ok
    obtain ⟨provider,stepped,screen,responded,last⟩ := ok
    cases Option.some.inj last
    have spent := providerSpends agrees.provider stepped
    have queued := newsBlocks responded
    simp only [App.blocks,queued,AppEvent.waits,AppEvent.taps,Bool.not_false,Bool.and_true,Bool.toNat_true,
      Bool.toNat_false]
    omega

theorem launchBlocks {F : Foundation Data} {first : App} (launch : App.launch F = some first) :
    first.blocks ≤ 8 := by
  have bound := retrieveBlocks (s := .new) .displayPosts launch
  have fresh : App.new.blocks = 1 := rfl
  simp only [fresh,ScreenCall.retrieval,CallArgs.blocks] at bound
  exact bound

theorem runBlocks {F : Foundation Data} {events more : List (AppEvent Data)} {s t : App}
    (ran : App.run F events = some s) (continued : Steps.run (App.step F) s more = some t) :
    more.countP (fun e => !e.waits && !e.taps) + t.blocks ≤ s.blocks + 12*more.countP AppEvent.taps := by
  refine Steps.spends App.blocks _ _ 12 (fun more before e next found stepped => ?_) continued
  have reached : App.run F (events ++ more) = some before := by
    rw [appContinues,ran]
    exact found
  exact appSpends (appRun reached) stepped

theorem waitedBlocks {d : Nat × AppEvent Data} (moves : d.2.waits = false) (untouched : d.2.taps = false) :
    (afterWait d).countP (fun e => !e.waits && !e.taps) = 1 ∧ (afterWait d).countP AppEvent.taps = 0 := by
  have waits : (AppEvent.hud (.wait d.1) : AppEvent Data).waits = true := rfl
  have taps : (AppEvent.hud (.wait d.1) : AppEvent Data).taps = false := rfl
  simp [afterWait,moves,untouched,waits,taps]

theorem waitAgrees {F : Foundation Data} {events : List (AppEvent Data)} {s : App}
    (ran : App.run F events = some s) (alive : s.provider.trap = none) :
    ∃ waited, s.step F (.hud (.wait 0)) = some waited ∧ waited.provider = s.provider ∧
      App.run F (events ++ [.hud (.wait 0)]) = some waited := by
  obtain ⟨block,_,_,_,taken,_⟩ := hudTaken (F := F) (e := .wait 0) alive rfl
  refine ⟨_,taken,rfl,?_⟩
  rw [appContinues,ran]
  exact (Steps.runSingle _ _).trans taken

theorem callRuns {F : Foundation Data} {events : List (AppEvent Data)} {s : App}
    (ran : App.run F events = some s) (alive : s.provider.trap = none)
    {i : Instance CallArgs CallState CallResponse} (member : i ∈ s.provider.instances)
    (waiting : i.delivered = []) :
    ∃ call e next, Unaided e ∧ Steps.run (App.step F) s (afterWait (0,.block call e)) = some next ∧
      next.provider.trap = none := by
  obtain ⟨waited,first,same,later⟩ := waitAgrees ran alive
  obtain ⟨call,found⟩ := List.mem_iff_getElem?.mp member
  obtain ⟨a,agrees⟩ := instanceAgrees (appRun ran).provider member
  obtain ⟨e,block,unaided,pending⟩ := callPending (waiting ▸ agrees)
  obtain ⟨state,out,rfl⟩ := unaidedSafe agrees unaided pending
  have stepped : waited.provider.step (dataProvider F) (.step call e) = some
      ⟨s.provider.instances.set call ⟨i.args,state,i.delivered ++ completions out⟩,
        s.provider.log ++ actions out,none⟩ := by
    rw [same]
    exact poolEnabled alive found pending
  obtain ⟨next,second,provider,_⟩ := blockAgrees (appRun later) stepped
  refine ⟨call,e,next,unaided,?_,by rw [provider]⟩
  simp only [afterWait,Steps.run,first,second,Option.bind_some]

theorem appProgress {F : Foundation Data} {events : List (AppEvent Data)} {s : App}
    (ran : App.run F events = some s) (alive : s.provider.trap = none) (busy : ¬ s.Resting) :
    ∃ d next, d.2.Unattended ∧ d.2.waits = false ∧ d.2.taps = false ∧
      Steps.run (App.step F) s (afterWait d) = some next ∧ next.provider.trap = none := by
  by_cases answered : ∀ i ∈ s.provider.instances, i.delivered ≠ []
  · obtain ⟨milliseconds,e,next,moves,stepped,provider,_⟩ :=
      hudRuns (F := F) alive (fun settled => busy ⟨answered,settled⟩)
    exact ⟨(milliseconds,.hud e),next,trivial,moves,rfl,stepped,by rw [provider]; exact alive⟩
  · push Not at answered
    obtain ⟨i,member,waiting⟩ := answered
    obtain ⟨call,e,next,unaided,stepped,aliveNext⟩ := callRuns ran alive member waiting
    exact ⟨(0,.block call e),next,unaided,rfl,rfl,stepped,aliveNext⟩

theorem appComesToRest (F : Foundation Data) {events : List (AppEvent Data)} {s : App}
    (ran : App.run F events = some s) :
    events.countP (fun e => !e.waits && !e.taps) ≤ 8 + 12*events.countP AppEvent.taps ∧
    (s.Resting → s.screen.state.hud.alpha = 0) ∧
    (s.provider.trap = none →
      (¬ s.Resting → ∃ d next, d.2.Unattended ∧ d.2.waits = false ∧
        Steps.run (App.step F) s (afterWait d) = some next ∧ next.provider.trap = none) ∧
      ∃ more t, (∀ e ∈ more, e.Unattended) ∧ App.run F (events ++ more) = some t ∧
        t.provider.trap = none ∧ t.Resting ∧ t.screen.state.hud.alpha = 0) := by
  refine ⟨?_,restingHidden ran,fun alive => ⟨fun busy => ?_,?_⟩⟩
  · obtain ⟨first,launch,continued⟩ := Option.bind_eq_some_iff.mp ran
    have start : App.run F [] = some first := by rw [App.run,launch]; rfl
    have bound := runBlocks start continued
    have eight := launchBlocks launch
    omega
  · obtain ⟨d,next,unattended,moves,_,stepped,aliveNext⟩ := appProgress ran alive busy
    exact ⟨d,next,unattended,moves,stepped,aliveNext⟩
  · have progress : ∀ t, (∃ more, App.run F (events ++ more) = some t ∧ t.provider.trap = none) → ¬ t.Resting →
        ∃ d next, d.2.Unattended ∧ Steps.run (App.step F) t (afterWait d) = some next ∧
          (∃ more, App.run F (events ++ more) = some next ∧ next.provider.trap = none) ∧
          next.blocks < t.blocks := by
      rintro t ⟨more,ranT,aliveT⟩ busy
      obtain ⟨d,next,unattended,moves,untouched,stepped,aliveNext⟩ := appProgress ranT aliveT busy
      refine ⟨d,next,unattended,stepped,⟨more ++ afterWait d,?_,aliveNext⟩,?_⟩
      · rw [← List.append_assoc,appContinues,ranT]
        exact stepped
      · have spent := runBlocks ranT stepped
        rw [(waitedBlocks moves untouched).1,(waitedBlocks moves untouched).2] at spent
        omega
    obtain ⟨more,t,only,_,ranMore,⟨_,ranT,aliveT⟩,resting⟩ :=
      Steps.drains _ _ _ _ progress ⟨[],by rw [List.append_nil]; exact ran,alive⟩
    refine ⟨more.flatMap afterWait,t,?_,?_,aliveT,resting,restingHidden ranT resting⟩
    · intro e member
      obtain ⟨d,inside,part⟩ := List.mem_flatMap.mp member
      rcases List.mem_pair.mp part with rfl | rfl
      · trivial
      · exact only d inside
    · rw [appContinues,ran]
      exact (Steps.runFlat _ _ _).symm.trans ranMore

theorem tappedComesToRest : ∃ s more t, App.run plainFoundation (tappedEvents.take 7) = some s ∧
    ¬ s.Resting ∧ App.run plainFoundation (tappedEvents.take 7 ++ more) = some t ∧ t.Resting ∧
    t.screen.state.hud.alpha = 0 := by
  have ran : App.run plainFoundation (tappedEvents.take 7) = some _ := rfl
  obtain ⟨_,_,rest⟩ := appComesToRest plainFoundation ran
  obtain ⟨_,more,t,_,later,_,resting,hidden⟩ := rest rfl
  refine ⟨_,more,t,ran,?_,later,resting,hidden⟩
  rintro ⟨answered,_⟩
  exact answered _ (List.mem_cons_of_mem _ List.mem_cons_self) rfl

end BabylonHealthDemo
