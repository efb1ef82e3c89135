import OpenBioUnlock.Codec.Json
import OpenBioUnlock.Codec.Utf8
import OpenBioUnlock.Daemon.Server

/-!
# How the daemon reads a request

`handle_stream` takes a connection line by line, as long as a line is UTF-8, and
reads each as JSON into `Request`, an enumeration tagged by its member `type`.

`Request.ofJson` is the representation of such an enumeration: an object in which
the tag and the fields of its variant each stand once, in any order and beside
other members; or an array of the tag and the fields in their order.  The reader
itself is `serde_json` with the code `serde` derives, and enters as the structure
`SerdeJson`: what it reads is that representation, and it reads every object of
strings that is one.
-/

namespace OpenBioUnlock.Daemon

open Codec

/-! ## The representation -/

/-- The value of the member `name`, which has to stand once. -/
def member (members : List (ByteString × Json)) (name : ByteString) : Option Json :=
  match members.filter fun m => m.1 = name with
  | [m] => some m.2
  | _ => none

def text? : Json → Option ByteString
  | .string text => some text
  | _ => none

/-- A `u64`. -/
def u64? : Json → Option UInt64
  | .number token =>
      match Json.natural? token with
      | some n => if n < UInt64.size then some (UInt64.ofNat n) else none
      | none => none
  | _ => none

/-- A field that is a `String`. -/
def textMember (members : List (ByteString × Json)) (name : String) : Option ByteString :=
  (member members (ascii name)).bind text?

def u64Member (members : List (ByteString × Json)) (name : String) : Option UInt64 :=
  (member members (ascii name)).bind u64?

namespace Request

def ofMembers (members : List (ByteString × Json)) : Option Request := do
  let tag ← textMember members "type"
  if tag = ascii "authorize" then
    pure (.authorize (← textMember members "user"))
  else if tag = ascii "challenge" then
    pure .challenge
  else if tag = ascii "pair" then
    pure (.pair (← textMember members "device_id") (← textMember members "public_key")
      (← textMember members "pairing_code"))
  else if tag = ascii "verify" then
    pure (.verify ⟨← textMember members "challenge_id", ← textMember members "device_id",
      ← textMember members "nonce", ← u64Member members "timestamp",
      ← textMember members "signature"⟩)
  else none

/-- The fields of a variant in their order. -/
def ofItems (tag : ByteString) (items : List Json) : Option Request :=
  if tag = ascii "authorize" then
    match items with
    | [.string user] => some (.authorize user)
    | _ => none
  else if tag = ascii "challenge" then
    match items with
    | [] => some .challenge
    | _ => none
  else if tag = ascii "pair" then
    match items with
    | [.string deviceId, .string publicKey, .string pairingCode] =>
        some (.pair deviceId publicKey pairingCode)
    | _ => none
  else if tag = ascii "verify" then
    match items with
    | [.string challengeId, .string deviceId, .string nonce, timestamp, .string signature] =>
        (u64? timestamp).map fun t => .verify ⟨challengeId, deviceId, nonce, t, signature⟩
    | _ => none
  else none

def ofJson : Json → Option Request
  | .object members => ofMembers members
  | .array (.string tag :: items) => ofItems tag items
  | _ => none

end Request

/-! ## The reader -/

/-- `serde_json::from_str::<Request>`, of which nothing else is known: it refuses
numbers out of range and deep nesting, which an object of strings has not. -/
structure SerdeJson where
  fromStr : ByteString → Except String Request
  /-- what it reads is JSON text of the request -/
  sound : ∀ line request, fromStr line = .ok request →
    (Json.parse line).bind Request.ofJson = some request
  /-- it reads an object of strings -/
  complete : ∀ line members request, Json.parse line = some (.object members) →
    (∀ m ∈ members, ∃ text, m.2 = .string text) →
    Request.ofJson (.object members) = some request → fromStr line = .ok request

/-- The requests, or errors, that the daemon makes of the bytes of a connection. -/
def requests (serde : SerdeJson) (bytes : ByteString) : List (Except String Request) :=
  ((lines bytes).takeWhile validUtf8).map serde.fromStr

/-- A reader without limits. -/
def SerdeJson.unlimited : SerdeJson where
  fromStr line :=
    match (Json.parse line).bind Request.ofJson with
    | some request => .ok request
    | none => .error "invalid"
  sound line request h := by
    split at h
    · rename_i request' heq
      rw [heq, Except.ok.inj h]
    · cases h
  complete line members request hparse _ hof := by
    rw [hparse, Option.bind_some, hof]

/-! ## Members of an object -/

theorem member_cons_self {name : ByteString} {v w : Json} {rest : List (ByteString × Json)}
    (h : member ((name, v) :: rest) name = some w) : w = v := by
  unfold member at h
  rw [List.filter_cons_of_pos (by simp)] at h
  split at h
  · rename_i m heq
    rw [← Option.some.inj h, ← (List.cons.inj heq).1]
  · cases h

theorem member_cons_ne {name key : ByteString} {v : Json} {rest : List (ByteString × Json)}
    (h : key ≠ name) : member ((key, v) :: rest) name = member rest name := by
  unfold member
  rw [List.filter_cons_of_neg (by simpa using h)]

/-! ## A request to authorize -/

/-- The text of the request up to the user. -/
def authorizeHead : ByteString :=
  ascii "\x7b\"type\":\"authorize\",\"user\":\""

theorem plain_type : ∀ c ∈ ascii "type", Json.IsPlain c := by decide +kernel

theorem plain_user : ∀ c ∈ ascii "user", Json.IsPlain c := by decide +kernel

theorem plain_authorize : ∀ c ∈ ascii "authorize", Json.IsPlain c := by decide +kernel

/-- The members of a text that begins so: the tag and what follows. -/
theorem value_authorizeHead (fuel : ℕ) (s : ByteString) :
    Json.value (fuel + 4) (authorizeHead ++ s) =
      (Json.stringFrom .plain s).bind fun p => (Json.next p.2).bind fun q =>
        if q.1 = 44 then (Json.members (fuel + 1) q.2).map fun r =>
          (.object ((ascii "type", .string (ascii "authorize")) ::
            (ascii "user", .string p.1) :: r.1), r.2)
        else if q.1 = 125 then
          some (.object [(ascii "type", .string (ascii "authorize")),
            (ascii "user", .string p.1)], q.2)
        else none := by
  have hhead : authorizeHead ++ s = 123 :: 34 :: (ascii "type" ++ 34 :: 58 :: 34 ::
      (ascii "authorize" ++ 34 :: 44 :: 34 :: (ascii "user" ++ 34 :: 58 :: 34 :: s))) := by
    rfl
  have hcomma : ∀ t, Json.next (44 :: t) = some (44, t) := fun t => Json.next_cons rfl t
  rw [hhead, Json.value_brace rfl, Json.members_string plain_type,
    Json.stringFrom_plain plain_authorize]
  simp only [Option.bind_some, hcomma, if_true]
  rw [Json.members_string plain_user]
  cases hread : Json.stringFrom .plain s with
  | none => rfl
  | some p =>
      simp only [Option.bind_some]
      cases hnext : Json.next p.2 with
      | none => rfl
      | some q =>
          simp only [Option.bind_some]
          split_ifs
          · cases Json.members (fuel + 1) q.2 <;> rfl
          · rfl
          · rfl

/-- The user such an object names is the text of that member. -/
theorem ofMembers_user {text user : ByteString} {rest : List (ByteString × Json)}
    (h : Request.ofMembers ((ascii "type", .string (ascii "authorize")) ::
      (ascii "user", .string text) :: rest) = some (.authorize user)) : text = user := by
  obtain ⟨tag, htag, h⟩ := Option.bind_eq_some_iff.mp h
  obtain ⟨v, hv, htext⟩ := Option.bind_eq_some_iff.mp htag
  -- the tag stands first
  obtain rfl := member_cons_self hv
  obtain rfl := Option.some.inj htext
  rw [if_pos rfl] at h
  obtain ⟨name, hname, h⟩ := Option.bind_eq_some_iff.mp h
  obtain ⟨w, hw, hwtext⟩ := Option.bind_eq_some_iff.mp hname
  rw [member_cons_ne (by decide)] at hw
  obtain rfl := member_cons_self hw
  obtain rfl := Option.some.inj hwtext
  cases h
  rfl

/-- Such an object is no other request. -/
theorem ofMembers_authorize {text : ByteString} {rest : List (ByteString × Json)}
    {request : Request} (h : Request.ofMembers ((ascii "type", .string (ascii "authorize")) ::
      (ascii "user", .string text) :: rest) = some request) :
    ∃ user, request = .authorize user := by
  obtain ⟨tag, htag, h⟩ := Option.bind_eq_some_iff.mp h
  obtain ⟨v, hv, htext⟩ := Option.bind_eq_some_iff.mp htag
  -- the tag stands first
  obtain rfl := member_cons_self hv
  obtain rfl := Option.some.inj htext
  rw [if_pos rfl] at h
  obtain ⟨user, -, h⟩ := Option.bind_eq_some_iff.mp h
  cases h
  exact ⟨user, rfl⟩

/-- The reader has the steps for the head. -/
theorem parse_steps (s : ByteString) : ∃ fuel, 2 * (authorizeHead ++ s).length + 2 = fuel + 4 := by
  refine ⟨2 * (authorizeHead ++ s).length - 2, ?_⟩
  have hlength : authorizeHead.length = 28 := by decide
  rw [List.length_append, hlength]
  omega

/-- **What is read as the user is a string after the head**, and the text goes on
behind it. -/
theorem user_of_parse {s user : ByteString}
    (h : (Json.parse (authorizeHead ++ s)).bind Request.ofJson = some (.authorize user)) :
    ∃ tail, Json.stringFrom .plain s = some (user, tail) ∧ tail ≠ [] := by
  obtain ⟨v, hparse, hof⟩ := Option.bind_eq_some_iff.mp h
  obtain ⟨fuel, hfuel⟩ := parse_steps s
  rw [Json.parse, hfuel, value_authorizeHead] at hparse
  cases hread : Json.stringFrom .plain s with
  | none => simp [hread] at hparse
  | some p =>
      obtain ⟨text, tail⟩ := p
      simp only [hread, Option.bind_some] at hparse
      cases hnext : Json.next tail with
      | none => simp [hnext] at hparse
      | some q =>
          have htail : tail ≠ [] := by
            rintro rfl
            cases hnext
          simp only [hnext, Option.bind_some] at hparse
          split at hparse
          · rename_i v' rest heq
            split_ifs at hparse
            cases hparse
            refine ⟨tail, ?_, htail⟩
            split_ifs at heq
            · obtain ⟨r, -, hr⟩ := Option.map_eq_some_iff.mp heq
              obtain ⟨rfl, -⟩ := Prod.mk.inj hr
              rw [ofMembers_user hof]
            · obtain ⟨rfl, -⟩ := Prod.mk.inj (Option.some.inj heq)
              rw [ofMembers_user hof]
          · cases hparse

/-- **What is read behind the head asks for an authorization**, whatever the text. -/
theorem authorize_of_parse {s : ByteString} {request : Request}
    (h : (Json.parse (authorizeHead ++ s)).bind Request.ofJson = some request) :
    ∃ user, request = .authorize user := by
  obtain ⟨v, hparse, hof⟩ := Option.bind_eq_some_iff.mp h
  obtain ⟨fuel, hfuel⟩ := parse_steps s
  rw [Json.parse, hfuel, value_authorizeHead] at hparse
  cases hread : Json.stringFrom .plain s with
  | none => simp [hread] at hparse
  | some p =>
      simp only [hread, Option.bind_some] at hparse
      cases hnext : Json.next p.2 with
      | none => simp [hnext] at hparse
      | some q =>
          simp only [hnext, Option.bind_some] at hparse
          split at hparse
          · rename_i v' rest heq
            split_ifs at hparse
            cases hparse
            split_ifs at heq
            · obtain ⟨r, -, hr⟩ := Option.map_eq_some_iff.mp heq
              obtain ⟨rfl, -⟩ := Prod.mk.inj hr
              exact ofMembers_authorize hof
            · obtain ⟨rfl, -⟩ := Prod.mk.inj (Option.some.inj heq)
              exact ofMembers_authorize hof
          · cases hparse

/-- **A plain user is read back.** -/
theorem parse_user {user : ByteString} (h : ∀ c ∈ user, Json.IsPlain c) :
    Json.parse (authorizeHead ++ (user ++ [34, 125])) =
      some (.object [(ascii "type", .string (ascii "authorize")), (ascii "user", .string user)]) := by
  obtain ⟨fuel, hfuel⟩ := parse_steps (user ++ [34, 125])
  have hread : Json.stringFrom .plain (user ++ [34, 125]) = some (user, [125]) :=
    Json.stringFrom_plain h [125]
  have hnext : Json.next [125] = some (125, []) := Json.next_cons rfl []
  rw [Json.parse, hfuel, value_authorizeHead, hread]
  simp only [Option.bind_some, hnext]
  rfl

end OpenBioUnlock.Daemon
