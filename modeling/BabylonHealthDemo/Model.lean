import BabylonHealthDemo.Responses

/-! The record types and their coding keys. Encoding writes every field under its
raw key; decoding reads exactly these keys and ignores all others. Each type is
stored unchanged by a tree store and read back as the same value. -/
namespace BabylonHealthDemo
open JsonTree

structure Post where
  userId : Int64
  postId : Int64
  title : String
  body : String
  deriving DecidableEq, Repr

namespace Post

inductive CodingKeys where
  | userId
  | postId
  | title
  | body

def CodingKeys.rawValue : CodingKeys → String
  | .userId => "userId"
  | .postId => "id"
  | .title => "title"
  | .body => "body"

def encode (p : Post) : Json := .dictionary
  [(CodingKeys.userId.rawValue,.int p.userId),(CodingKeys.postId.rawValue,.int p.postId),
   (CodingKeys.title.rawValue,.string p.title),(CodingKeys.body.rawValue,.string p.body)]

def decode (j : Json) : Option Post := do
  let userId ← decodeField CodingKeys.userId.rawValue decodeInt j
  let postId ← decodeField CodingKeys.postId.rawValue decodeInt j
  let title ← decodeField CodingKeys.title.rawValue decodeString j
  let body ← decodeField CodingKeys.body.rawValue decodeString j
  some ⟨userId,postId,title,body⟩

end Post

structure Comment where
  postId : Int64
  commentId : Int64
  name : String
  email : String
  body : String
  deriving DecidableEq, Repr

namespace Comment

inductive CodingKeys where
  | postId
  | commentId
  | name
  | email
  | body

def CodingKeys.rawValue : CodingKeys → String
  | .postId => "postId"
  | .commentId => "id"
  | .name => "name"
  | .email => "email"
  | .body => "body"

def encode (c : Comment) : Json := .dictionary
  [(CodingKeys.postId.rawValue,.int c.postId),(CodingKeys.commentId.rawValue,.int c.commentId),
   (CodingKeys.name.rawValue,.string c.name),(CodingKeys.email.rawValue,.string c.email),
   (CodingKeys.body.rawValue,.string c.body)]

def decode (j : Json) : Option Comment := do
  let postId ← decodeField CodingKeys.postId.rawValue decodeInt j
  let commentId ← decodeField CodingKeys.commentId.rawValue decodeInt j
  let name ← decodeField CodingKeys.name.rawValue decodeString j
  let email ← decodeField CodingKeys.email.rawValue decodeString j
  let body ← decodeField CodingKeys.body.rawValue decodeString j
  some ⟨postId,commentId,name,email,body⟩

end Comment

structure UserGeo where
  lat : String
  lng : String
  deriving DecidableEq, Repr

namespace UserGeo

def encode (g : UserGeo) : Json := .dictionary [("lat",.string g.lat),("lng",.string g.lng)]

def decode (j : Json) : Option UserGeo := do
  let lat ← decodeField "lat" decodeString j
  let lng ← decodeField "lng" decodeString j
  some ⟨lat,lng⟩

end UserGeo

structure UserAddress where
  street : String
  suite : String
  city : String
  zipcode : String
  geo : UserGeo
  deriving DecidableEq, Repr

namespace UserAddress

def encode (a : UserAddress) : Json := .dictionary
  [("street",.string a.street),("suite",.string a.suite),("city",.string a.city),
   ("zipcode",.string a.zipcode),("geo",a.geo.encode)]

def decode (j : Json) : Option UserAddress := do
  let street ← decodeField "street" decodeString j
  let suite ← decodeField "suite" decodeString j
  let city ← decodeField "city" decodeString j
  let zipcode ← decodeField "zipcode" decodeString j
  let geo ← decodeField "geo" UserGeo.decode j
  some ⟨street,suite,city,zipcode,geo⟩

end UserAddress

structure UserCompany where
  name : String
  catchPhrase : String
  valueAdd : String
  deriving DecidableEq, Repr

namespace UserCompany

inductive CodingKeys where
  | name
  | catchPhrase
  | valueAdd

def CodingKeys.rawValue : CodingKeys → String
  | .name => "name"
  | .catchPhrase => "catchPhrase"
  | .valueAdd => "bs"

def encode (c : UserCompany) : Json := .dictionary
  [(CodingKeys.name.rawValue,.string c.name),(CodingKeys.catchPhrase.rawValue,.string c.catchPhrase),
   (CodingKeys.valueAdd.rawValue,.string c.valueAdd)]

def decode (j : Json) : Option UserCompany := do
  let name ← decodeField CodingKeys.name.rawValue decodeString j
  let catchPhrase ← decodeField CodingKeys.catchPhrase.rawValue decodeString j
  let valueAdd ← decodeField CodingKeys.valueAdd.rawValue decodeString j
  some ⟨name,catchPhrase,valueAdd⟩

end UserCompany

structure User where
  userId : Int64
  name : String
  username : String
  email : String
  address : UserAddress
  phone : String
  website : String
  company : UserCompany
  deriving DecidableEq, Repr

namespace User

inductive CodingKeys where
  | userId
  | name
  | username
  | email
  | address
  | phone
  | website
  | company

def CodingKeys.rawValue : CodingKeys → String
  | .userId => "id"
  | .name => "name"
  | .username => "username"
  | .email => "email"
  | .address => "address"
  | .phone => "phone"
  | .website => "website"
  | .company => "company"

def encode (u : User) : Json := .dictionary
  [(CodingKeys.userId.rawValue,.int u.userId),(CodingKeys.name.rawValue,.string u.name),
   (CodingKeys.username.rawValue,.string u.username),(CodingKeys.email.rawValue,.string u.email),
   (CodingKeys.address.rawValue,u.address.encode),(CodingKeys.phone.rawValue,.string u.phone),
   (CodingKeys.website.rawValue,.string u.website),(CodingKeys.company.rawValue,u.company.encode)]

def decode (j : Json) : Option User := do
  let userId ← decodeField CodingKeys.userId.rawValue decodeInt j
  let name ← decodeField CodingKeys.name.rawValue decodeString j
  let username ← decodeField CodingKeys.username.rawValue decodeString j
  let email ← decodeField CodingKeys.email.rawValue decodeString j
  let address ← decodeField CodingKeys.address.rawValue UserAddress.decode j
  let phone ← decodeField CodingKeys.phone.rawValue decodeString j
  let website ← decodeField CodingKeys.website.rawValue decodeString j
  let company ← decodeField CodingKeys.company.rawValue UserCompany.decode j
  some ⟨userId,name,username,email,address,phone,website,company⟩

end User

def encodeArray (encode : α → Json) (xs : List α) : Json := .array (xs.map encode)

theorem decodePost (p : Post) : Post.decode p.encode = some p := by
  simp [Post.decode,Post.encode,decodeField,Json.field,Post.CodingKeys.rawValue,List.lookup]

theorem decodeComment (c : Comment) : Comment.decode c.encode = some c := by
  simp [Comment.decode,Comment.encode,decodeField,Json.field,Comment.CodingKeys.rawValue,List.lookup]

theorem decodeGeo (g : UserGeo) : UserGeo.decode g.encode = some g := by
  simp [UserGeo.decode,UserGeo.encode,decodeField,Json.field,List.lookup]

theorem decodeAddress (a : UserAddress) : UserAddress.decode a.encode = some a := by
  simp [UserAddress.decode,UserAddress.encode,decodeField,Json.field,List.lookup,decodeGeo]

theorem decodeCompany (c : UserCompany) : UserCompany.decode c.encode = some c := by
  simp [UserCompany.decode,UserCompany.encode,decodeField,Json.field,UserCompany.CodingKeys.rawValue,
    List.lookup]

theorem decodeUser (u : User) : User.decode u.encode = some u := by
  simp [User.decode,User.encode,decodeField,Json.field,User.CodingKeys.rawValue,List.lookup,
    decodeAddress,decodeCompany]

theorem respectsPost : Respects Post.decode := by
  intro a b same
  simp only [Post.decode,respectsField respectsInt _ a b same,respectsField respectsString _ a b same]

theorem respectsComment : Respects Comment.decode := by
  intro a b same
  simp only [Comment.decode,respectsField respectsInt _ a b same,respectsField respectsString _ a b same]

theorem respectsGeo : Respects UserGeo.decode := by
  intro a b same
  simp only [UserGeo.decode,respectsField respectsString _ a b same]

theorem respectsAddress : Respects UserAddress.decode := by
  intro a b same
  simp only [UserAddress.decode,respectsField respectsString _ a b same,respectsField respectsGeo _ a b same]

theorem respectsCompany : Respects UserCompany.decode := by
  intro a b same
  simp only [UserCompany.decode,respectsField respectsString _ a b same]

theorem respectsUser : Respects User.decode := by
  intro a b same
  simp only [User.decode,respectsField respectsInt _ a b same,respectsField respectsString _ a b same,
    respectsField respectsAddress _ a b same,respectsField respectsCompany _ a b same]

/- No field name can be taken for an array index, and no field is ever null or an
empty container. -/
theorem storablePost (p : Post) : Storable p.encode := by
  refine storableRecord (List.cons_ne_nil _ _) ?_
  simp only [List.forall_mem_cons]
  exact ⟨⟨by decide,.number _⟩,⟨by decide,.number _⟩,⟨by decide,.string _⟩,⟨by decide,.string _⟩,by simp⟩

theorem storableComment (c : Comment) : Storable c.encode := by
  refine storableRecord (List.cons_ne_nil _ _) ?_
  simp only [List.forall_mem_cons]
  exact ⟨⟨by decide,.number _⟩,⟨by decide,.number _⟩,⟨by decide,.string _⟩,⟨by decide,.string _⟩,
    ⟨by decide,.string _⟩,by simp⟩

theorem storableGeo (g : UserGeo) : Storable g.encode := by
  refine storableRecord (List.cons_ne_nil _ _) ?_
  simp only [List.forall_mem_cons]
  exact ⟨⟨by decide,.string _⟩,⟨by decide,.string _⟩,by simp⟩

theorem storableAddress (a : UserAddress) : Storable a.encode := by
  refine storableRecord (List.cons_ne_nil _ _) ?_
  simp only [List.forall_mem_cons]
  exact ⟨⟨by decide,.string _⟩,⟨by decide,.string _⟩,⟨by decide,.string _⟩,⟨by decide,.string _⟩,
    ⟨by decide,storableGeo _⟩,by simp⟩

theorem storableCompany (c : UserCompany) : Storable c.encode := by
  refine storableRecord (List.cons_ne_nil _ _) ?_
  simp only [List.forall_mem_cons]
  exact ⟨⟨by decide,.string _⟩,⟨by decide,.string _⟩,⟨by decide,.string _⟩,by simp⟩

theorem storableUser (u : User) : Storable u.encode := by
  refine storableRecord (List.cons_ne_nil _ _) ?_
  simp only [List.forall_mem_cons]
  exact ⟨⟨by decide,.number _⟩,⟨by decide,.string _⟩,⟨by decide,.string _⟩,⟨by decide,.string _⟩,
    ⟨by decide,storableAddress _⟩,⟨by decide,.string _⟩,⟨by decide,.string _⟩,
    ⟨by decide,storableCompany _⟩,by simp⟩

theorem storableArray {encode : α → Json} (storable : ∀ x, Storable (encode x)) {xs : List α}
    (inhabited : xs ≠ []) : Storable (encodeArray encode xs) := by
  refine .array (by simpa using inhabited) ?_
  intro j member
  obtain ⟨x,_,same⟩ := List.mem_map.mp member
  exact same ▸ storable x

theorem decodeEncodedArray {encode : α → Json} {decode : Json → Option α}
    (roundTrip : ∀ x, decode (encode x) = some x) (xs : List α) :
    decodeArray decode (encodeArray encode xs) = some xs := decodeArrayOfMap roundTrip xs

end BabylonHealthDemo
