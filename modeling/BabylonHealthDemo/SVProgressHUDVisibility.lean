import BabylonHealthDemo.SVProgressHUDRuns

/-! When SVProgressHUD stays up. Progress stands until it is dismissed, or hidden by a
dismissal that was delayed past its show; an image never stands. The only thing that
dismisses by itself is the timer of an image, even of one that is no longer shown:
a fade-in that ends late sets its timer for whatever shows by then. -/
namespace BabylonHealthDemo

variable {κ : Type}

inductive SVMoment where
  | progress
  | image
  | dismissal
  | hidden
  | imageFadedIn
  | timedOut
  deriving DecidableEq, Repr

def SVOperation.moment : SVOperation κ → SVMoment
  | .showProgress _ => .progress
  | .showImage _ => .image
  | .dismissWithDelay _ _ => .dismissal

namespace SVProgressHUD

/- Hiding does not reach a view that still waits for its grace time. -/
def moment (h : SVProgressHUD κ) : SVEvent κ → Option SVMoment
  | .operation => h.mainQueue.head?.map SVOperation.moment
  | .delayOver _ => if h.graceTimer.any HUDTimer.isValid then none else some .hidden
  | .fadeInEnded index => h.fadeIns[index]?.join.map (fun _ => .imageFadedIn)
  | .fadeOutTimer => some .timedOut
  | _ => none

def moments (events : List (SVEvent κ)) : List SVMoment :=
  Steps.watch track (fun s e => (s.1.moment e).toList) (sharedView,[]) events

end SVProgressHUD

end BabylonHealthDemo
