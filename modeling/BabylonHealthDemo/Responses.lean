import BabylonHealthDemo.Library.PathStore
import BabylonHealthDemo.Library.Pool

/-! The responses that travel through the app, its error values with their texts,
the two services that its blocks act on, and the ways the process can die. -/
namespace BabylonHealthDemo
open JsonTree PathStore

inductive NetworkingServiceError where
  | noDataReceived
  | urlError
  deriving DecidableEq, Repr

def NetworkingServiceError.errorDescription : NetworkingServiceError → String
  | .noDataReceived => "No Data Returned From Server."
  | .urlError => "There was an error creating the URL."

inductive APINetworkingError where
  | jsonDecodingError
  deriving DecidableEq, Repr

def APINetworkingError.errorDescription : APINetworkingError → String
  | .jsonDecodingError => "There was an error decoding the response"

inductive APIDatabaseError where
  | conversionError
  | databaseWriteError
  | databaseReadError
  deriving DecidableEq, Repr

def APIDatabaseError.errorDescription : APIDatabaseError → String
  | .conversionError => "There was an error preparing for database write."
  | .databaseWriteError => "There was an error writing to the database."
  | .databaseReadError => "There was an error reading from the database."

inductive DataError where
  | unableToReadAllPostsData
  | unableToReadPostDetailsData
  deriving DecidableEq, Repr

def DataError.errorDescription : DataError → String
  | .unableToReadAllPostsData => "We were unable to retrieve your posts. If this is your first time using the app, the posts must first be downloaded using an active network connection."
  | .unableToReadPostDetailsData => "We were unable to load post details. If you are offline, the item may not have been downloaded yet. Please retry with an active network connection."

/- An error handed over by the URL session or by Firebase carries its own text. -/
inductive SwiftError where
  | networkingService (error : NetworkingServiceError)
  | apiNetworking (error : APINetworkingError)
  | apiDatabase (error : APIDatabaseError)
  | data (error : DataError)
  | external (description : String)
  deriving DecidableEq, Repr

def SwiftError.localizedDescription : SwiftError → String
  | .networkingService e => e.errorDescription
  | .apiNetworking e => e.errorDescription
  | .apiDatabase e => e.errorDescription
  | .data e => e.errorDescription
  | .external description => description

inductive ResponseType (α : Type) where
  | success (value : α)
  | failure (error : SwiftError)
  deriving DecidableEq, Repr

def ResponseType.value : ResponseType α → Option α
  | .success a => some a
  | .failure _ => none

@[simp] theorem valueSuccess (a : α) : (ResponseType.success a).value = some a := rfl
@[simp] theorem valueFailure (e : SwiftError) : (ResponseType.failure e : ResponseType α).value = none := rfl

theorem valueSome {response : ResponseType α} {a : α} : response.value = some a ↔ response = .success a := by
  cases response <;> simp

inductive Trap where
  | firstUserIsNil
  | responseErrorIsNil
  | unbalancedLeave
  | invalidTopLevelObject
  deriving DecidableEq, Repr

inductive Action where
  | networkActivityIndicator (visible : Bool)
  | setValue (node : Path) (object : Json)

def writesOf : List Action → List Write
  | [] => []
  | .networkActivityIndicator _ :: rest => writesOf rest
  | .setValue node object :: rest => ⟨node,object⟩ :: writesOf rest

theorem writesAppend (xs ys : List Action) : writesOf (xs ++ ys) = writesOf xs ++ writesOf ys := by
  induction xs with
  | nil => rfl
  | cons a xs ih => cases a <;> simp [writesOf,ih]

end BabylonHealthDemo
