import KernelSeal.Agent.PidReuse
import KernelSeal.Go.Json
import Mathlib.Data.Finset.Sort

/-!
# From the agent to the shim

The agent writes its response as JSON, and `requestOnce` of the shim reads it
through a reader that stops after `MaxMessageSize` bytes.  The writer has no such
bound, and JSON text cannot hold arbitrary bytes.  This file determines which
responses the shim receives as they were issued.
-/

namespace KernelSeal.Shim

open KernelSeal.Text
open KernelSeal.Utf8
open KernelSeal.Json
open KernelSeal.Registry
open KernelSeal.Resumption
open KernelSeal.Delivery
open KernelSeal.Release

/-! ## The messages -/

/-- `MaxMessageSize`. -/
def maxMessageSize : ℕ := 2 ^ 20

/-- The members of an encoded map, by key. -/
def mapMembers (entries : StringMap) : List (GoString × Value) :=
  (entries.keys.sort (· ≤ ·)).map fun key => (key, .string (entries.index key))

/-- A member that is omitted when it is empty. -/
def omitEmpty (empty : Prop) [Decidable empty] (key : GoString) (value : Value) :
    List (GoString × Value) :=
  if empty then [] else [(key, value)]

/-- `protocol.Response` as JSON. -/
def toJson (response : Response) : Value :=
  .object ([(str "ok", .bool response.ok)] ++
    omitEmpty (response.env = ∅) (str "env") (.object (mapMembers response.env)) ++
    [(str "protected", .bool response.isProtected)] ++
    omitEmpty (response.error = []) (str "error") (.string response.error) ++
    omitEmpty (response.warning = []) (str "warning") (.string response.warning))

/-- What `(*Server).reply` writes. -/
def wire (response : Response) : GoString := encode (toJson response) ++ [10]

/-- Store a member of the environment. -/
def assignEnv (env : StringMap) : GoString × Value → Option StringMap
  | (key, .string text) => some (env.insert key text)
  | _ => none

/-- Store a member in the field of its name; a value of another type is an error.  Names
match exactly, as those that the encoder writes do; Go also accepts them in other cases. -/
def assign (response : Response) (member : GoString × Value) : Option Response :=
  if member.1 = str "ok" then
    match member.2 with
    | .bool value => some { response with ok := value }
    | _ => none
  else if member.1 = str "env" then
    match member.2 with
    | .object members =>
        (members.foldlM assignEnv response.env).map fun env => { response with env := env }
    | _ => none
  else if member.1 = str "protected" then
    match member.2 with
    | .bool value => some { response with isProtected := value }
    | _ => none
  else if member.1 = str "error" then
    match member.2 with
    | .string text => some { response with error := text }
    | _ => none
  else if member.1 = str "warning" then
    match member.2 with
    | .string text => some { response with warning := text }
    | _ => none
  else some response

/-- JSON as a `protocol.Response`. -/
def ofJson : Value → Option Response
  | .object members => members.foldlM assign {}
  | _ => none

/-! ## The request -/

/-- What happens on the connection of the shim.  `received` are the bytes the agent
wrote, and `decodeError` is the error of `Decode`, if it fails. -/
structure Exchange where
  dialError : Option GoError := none
  deadlineError : Option GoError := none
  sendError : Option GoError := none
  received : GoString
  decodeError : GoError := []

/-- `requestOnce`. -/
def requestOnce (socketPath : GoString) (remaining : ℤ) (exchange : Exchange) :
    Except GoError Response :=
  if remaining ≤ 0 then .error (str "timed out connecting to " ++ socketPath)
  else
    match exchange.dialError with
    | some err => .error err
    | none =>
    match exchange.deadlineError with
    | some err => .error err
    | none =>
    match exchange.sendError with
    | some err => .error (str "sending request: " ++ err)
    | none =>
    match (decode (exchange.received.take maxMessageSize)).bind ofJson with
    | none => .error (str "reading response: " ++ exchange.decodeError)
    | some response =>
        if ¬ response.ok then
          .error (if response.error = [] then str "agent refused the request" else response.error)
        else .ok response

/-! ## What is read -/

/-- The environment that is read for one that was written. -/
def sanitizeEnv (entries : StringMap) : StringMap :=
  environment ((entries.keys.sort (· ≤ ·)).map fun key =>
    ⟨sanitize key, sanitize (entries.index key)⟩)

/-- The response that is read for one that was written. -/
def sanitizeResponse (response : Response) : Response where
  ok := response.ok
  env := sanitizeEnv response.env
  isProtected := response.isProtected
  error := sanitize response.error
  warning := sanitize response.warning

section Reading

variable {response : Response}

theorem sanitizeMembers_eq_map (members : List (GoString × Value)) :
    sanitizeMembers members = members.map fun member => (sanitize member.1, member.2.sanitize) := by
  induction members with
  | nil => rw [sanitizeMembers, List.map_nil]
  | cons member members ih =>
      obtain ⟨key, value⟩ := member
      rw [sanitizeMembers, ih, List.map_cons]

theorem foldlM_assignEnv (keys : List GoString) (entries env : StringMap) :
    (sanitizeMembers (keys.map fun key => (key, .string (entries.index key)))).foldlM
        assignEnv env =
      some ((keys.map fun key => (⟨sanitize key, sanitize (entries.index key)⟩ : Secret)).foldl
        (fun env secret => env.insert secret.name secret.value) env) := by
  induction keys generalizing env with
  | nil =>
      rw [List.map_nil, sanitizeMembers]
      rfl
  | cons key keys ih =>
      rw [List.map_cons, sanitizeMembers, List.foldlM_cons, Value.sanitize, List.map_cons,
        List.foldl_cons]
      exact ih _

theorem foldlM_member {key : GoString} (hkey : ValidString key) (value : Value)
    (response : Response) :
    (sanitizeMembers [(key, value)]).foldlM assign response =
      assign response (key, value.sanitize) := by
  rw [sanitizeMembers, sanitizeMembers, sanitize_of_valid hkey, List.foldlM_cons]
  exact bind_pure _

theorem foldlM_omitEmpty {empty : Prop} [Decidable empty] {key : GoString} (hkey : ValidString key)
    (value : Value) (response : Response) :
    (sanitizeMembers (omitEmpty empty key value)).foldlM assign response =
      if empty then some response else assign response (key, value.sanitize) := by
  rw [omitEmpty]
  split_ifs with hempty
  · rw [sanitizeMembers]
    rfl
  · exact foldlM_member hkey value response

theorem assign_ok (value : Bool) :
    assign response (str "ok", .bool value) = some { response with ok := value } :=
  if_pos rfl

theorem assign_env (hresponse : response.env = ∅) (env : StringMap) :
    assign response (str "env", (Value.object (mapMembers env)).sanitize) =
      some { response with env := sanitizeEnv env } := by
  rw [Value.sanitize, mapMembers, assign, if_neg (show str "env" ≠ str "ok" by decide), if_pos rfl]
  dsimp only
  rw [foldlM_assignEnv, hresponse]
  rfl

theorem assign_protected (value : Bool) :
    assign response (str "protected", .bool value) =
      some { response with isProtected := value } := by
  rw [assign, if_neg (show str "protected" ≠ str "ok" by decide),
    if_neg (show str "protected" ≠ str "env" by decide), if_pos rfl]

theorem assign_error (text : GoString) :
    assign response (str "error", .string text) = some { response with error := text } := by
  rw [assign, if_neg (show str "error" ≠ str "ok" by decide),
    if_neg (show str "error" ≠ str "env" by decide),
    if_neg (show str "error" ≠ str "protected" by decide), if_pos rfl]

theorem assign_warning (text : GoString) :
    assign response (str "warning", .string text) = some { response with warning := text } := by
  rw [assign, if_neg (show str "warning" ≠ str "ok" by decide),
    if_neg (show str "warning" ≠ str "env" by decide),
    if_neg (show str "warning" ≠ str "protected" by decide),
    if_neg (show str "warning" ≠ str "error" by decide), if_pos rfl]

theorem sanitizeEnv_empty : sanitizeEnv ∅ = ∅ := by
  rw [sanitizeEnv, Finmap.keys_empty, Finset.sort_empty]
  rfl

/-- The optional members are stored as if they had not been omitted. -/
theorem assign_omitted_env (hresponse : response.env = ∅) (env : StringMap) :
    (if env = ∅ then some response
      else assign response (str "env", (Value.object (mapMembers env)).sanitize)) =
      some { response with env := sanitizeEnv env } := by
  split_ifs with hempty
  · rw [hempty, sanitizeEnv_empty, ← hresponse]
  · exact assign_env hresponse env

theorem assign_omitted_error (hresponse : response.error = []) (text : GoString) :
    (if text = [] then some response
      else assign response (str "error", (Value.string text).sanitize)) =
      some { response with error := sanitize text } := by
  split_ifs with hempty
  · rw [hempty, show sanitize [] = [] from rfl, ← hresponse]
  · rw [Value.sanitize, assign_error]

theorem assign_omitted_warning (hresponse : response.warning = []) (text : GoString) :
    (if text = [] then some response
      else assign response (str "warning", (Value.string text).sanitize)) =
      some { response with warning := sanitize text } := by
  split_ifs with hempty
  · rw [hempty, show sanitize [] = [] from rfl, ← hresponse]
  · rw [Value.sanitize, assign_warning]

/-- What is read is the sanitized response. -/
theorem ofJson_sanitize_toJson (response : Response) :
    ofJson (toJson response).sanitize = some (sanitizeResponse response) := by
  rw [toJson, Value.sanitize, ofJson]
  simp only [sanitizeMembers_eq_map, List.map_append, List.foldlM_append]
  simp only [← sanitizeMembers_eq_map, Option.bind_eq_bind]
  rw [foldlM_member (by decide), Value.sanitize, assign_ok, Option.bind_some,
    foldlM_omitEmpty (by decide), assign_omitted_env rfl, Option.bind_some,
    foldlM_member (by decide), Value.sanitize, assign_protected, Option.bind_some,
    foldlM_omitEmpty (by decide), assign_omitted_error rfl, Option.bind_some,
    foldlM_omitEmpty (by decide), assign_omitted_warning rfl]
  rfl

end Reading

/-! ## What arrives as it was issued -/

/-- Every name and every value is valid UTF-8. -/
def ValidEnv (env : StringMap) : Prop :=
  ∀ name ∈ env.keys, ValidString name ∧ ValidString (env.index name)

instance : DecidablePred ValidEnv := fun _ => inferInstanceAs (Decidable (∀ _ ∈ _, _))

theorem lookup_index {env : StringMap} {name : GoString} (hname : name ∈ env.keys) :
    env.lookup name = some (env.index name) := by
  obtain ⟨value, hvalue⟩ := Finmap.mem_iff.1 (Finmap.mem_keys.1 hname)
  rw [StringMap.index, hvalue]
  rfl

/-- Every entry that is read is that of a name that was written. -/
theorem exists_key_of_lookup {env : StringMap} {name value : GoString}
    (hlookup : (sanitizeEnv env).lookup name = some value) :
    ∃ key ∈ env.keys, sanitize key = name ∧ sanitize (env.index key) = value := by
  rw [sanitizeEnv, lookup_environment] at hlookup
  obtain ⟨secret, hfound, rfl⟩ := Option.map_eq_some_iff.1 hlookup
  have hmem := List.mem_reverse.1 (List.mem_of_find?_eq_some hfound)
  have hname := List.find?_some hfound
  obtain ⟨key, hkey, rfl⟩ := List.mem_map.1 hmem
  exact ⟨key, (Finset.mem_sort _).1 hkey, by simpa using hname, rfl⟩

/-- Every name that was written is read. -/
theorem lookup_sanitize_ne_none {env : StringMap} {key : GoString} (hkey : key ∈ env.keys) :
    (sanitizeEnv env).lookup (sanitize key) ≠ none := by
  rw [sanitizeEnv, lookup_environment, Ne, Option.map_eq_none_iff, List.find?_eq_none]
  intro hnone
  have hmem := List.mem_map_of_mem (f := fun key =>
    (⟨sanitize key, sanitize (env.index key)⟩ : Secret)) ((Finset.mem_sort (· ≤ ·)).2 hkey)
  exact hnone _ (List.mem_reverse.2 hmem) (decide_eq_true rfl)

/-- An environment is read as it was written exactly when it is valid. -/
theorem sanitizeEnv_eq_self_iff {env : StringMap} : sanitizeEnv env = env ↔ ValidEnv env := by
  constructor
  · intro hsame name hname
    have hlookup := lookup_index hname
    rw [← congrArg (Finmap.lookup name) hsame] at hlookup
    obtain ⟨key, _, hkey, hvalue⟩ := exists_key_of_lookup hlookup
    exact ⟨hkey ▸ validString_sanitize key, hvalue ▸ validString_sanitize _⟩
  · intro hvalid
    have hkeys (key : GoString) (hkey : key ∈ env.keys) :
        sanitize key = key ∧ sanitize (env.index key) = env.index key := by
      obtain ⟨hname, hvalue⟩ := hvalid key hkey
      exact ⟨sanitize_of_valid hname, sanitize_of_valid hvalue⟩
    apply Finmap.ext_lookup
    intro name
    cases hlookup : (sanitizeEnv env).lookup name with
    | some value =>
        obtain ⟨key, hkey, rfl, rfl⟩ := exists_key_of_lookup hlookup
        rw [(hkeys key hkey).1, (hkeys key hkey).2, lookup_index hkey]
    | none =>
        symm
        rw [Finmap.lookup_eq_none, ← Finmap.mem_keys]
        intro hname
        have hread := lookup_sanitize_ne_none hname
        rw [(hkeys name hname).1] at hread
        exact hread hlookup

/-- The agent writes this response completely to a shim that has sent its request in
time. -/
structure Delivers (remaining : ℤ) (exchange : Exchange) (response : Response) : Prop where
  inTime : 0 < remaining
  dialed : exchange.dialError = none
  limited : exchange.deadlineError = none
  requested : exchange.sendError = none
  written : exchange.received = wire response

section Delivered

variable {remaining : ℤ} {exchange : Exchange} {response : Response}

theorem requestOnce_delivered (hdelivers : Delivers remaining exchange response)
    (socketPath : GoString) :
    requestOnce socketPath remaining exchange =
      match (decode ((wire response).take maxMessageSize)).bind ofJson with
      | none => .error (str "reading response: " ++ exchange.decodeError)
      | some response =>
          if ¬ response.ok then
            .error (if response.error = [] then str "agent refused the request" else response.error)
          else .ok response := by
  rw [requestOnce, if_neg (not_le.2 hdelivers.inTime), hdelivers.dialed, hdelivers.limited,
    hdelivers.requested, hdelivers.written]

/-- A response that fits is read, with its strings sanitized. -/
theorem requestOnce_of_le (hdelivers : Delivers remaining exchange response)
    (hok : response.ok = true) (hfits : (encode (toJson response)).length ≤ maxMessageSize)
    (socketPath : GoString) :
    requestOnce socketPath remaining exchange = .ok (sanitizeResponse response) := by
  rw [requestOnce_delivered hdelivers, wire, List.take_append, List.take_of_length_le hfits,
    decode_encode, Option.bind_some, ofJson_sanitize_toJson]
  have hread : (sanitizeResponse response).ok = true := hok
  simp [hread]

/-- A longer one is cut off and refused. -/
theorem requestOnce_of_lt (hdelivers : Delivers remaining exchange response)
    (hexceeds : maxMessageSize < (encode (toJson response)).length) (socketPath : GoString) :
    requestOnce socketPath remaining exchange =
      .error (str "reading response: " ++ exchange.decodeError) := by
  rw [requestOnce_delivered hdelivers, wire, List.take_append_of_le_length hexceeds.le,
    decode_take hexceeds]
  rfl

end Delivered

/-- The shim goes on with the environment, the protection and the warning that were
issued. -/
def Applies (result : Except GoError Response) (response : Response) : Prop :=
  ∃ applied, result = .ok applied ∧ applied.env = response.env ∧
    applied.isProtected = response.isProtected ∧ applied.warning = response.warning

/-- What the shim applies is valid and was short enough. -/
theorem valid_of_applies {response : Response} (hok : response.ok = true) {remaining : ℤ}
    {exchange : Exchange} (hdelivers : Delivers remaining exchange response)
    {socketPath : GoString}
    (happlies : Applies (requestOnce socketPath remaining exchange) response) :
    (ValidEnv response.env ∧ ValidString response.warning) ∧
      (encode (toJson response)).length ≤ maxMessageSize := by
  obtain ⟨applied, hread, henv, _, hwarning⟩ := happlies
  have hfits : (encode (toJson response)).length ≤ maxMessageSize := by
    by_contra hexceeds
    rw [requestOnce_of_lt hdelivers (not_le.1 hexceeds)] at hread
    cases hread
  rw [requestOnce_of_le hdelivers hok hfits] at hread
  cases hread
  exact ⟨⟨sanitizeEnv_eq_self_iff.1 henv, sanitize_eq_self_iff.1 hwarning⟩, hfits⟩

/-- For every response that serves a request and that the agent writes completely, the
shim applies what was issued if and only if its names, its values and its warning are
valid UTF-8 and its text has at most `MaxMessageSize` bytes. -/
theorem applies_iff {response : Response} (hok : response.ok = true) {remaining : ℤ}
    {exchange : Exchange} (hdelivers : Delivers remaining exchange response)
    (socketPath : GoString) :
    Applies (requestOnce socketPath remaining exchange) response ↔
      (ValidEnv response.env ∧ ValidString response.warning) ∧
        (encode (toJson response)).length ≤ maxMessageSize := by
  constructor
  · exact valid_of_applies hok hdelivers
  · rintro ⟨⟨henv, hwarning⟩, hfits⟩
    exact ⟨sanitizeResponse response, requestOnce_of_le hdelivers hok hfits socketPath,
      sanitizeEnv_eq_self_iff.2 henv, rfl, sanitize_eq_self_iff.2 hwarning⟩

/-! ## A secret that is not text -/

/-- A server that has one secret, with this value. -/
def secretServer (value : GoString) : Server where
  cfg := { requireProtection := true, identifyCallers := false, requirePodIdentity := false }
  bindings :=
    [{ name := str "app"
       selector := { binary := str "app" }
       secrets := [⟨str "TOKEN", value⟩] }]

/-- Its response to a caller, when every call succeeds. -/
def issuedResponse (value : GoString) : Response :=
  (run (fun _ => PidReuse.answers 1) []
    (handle Unicode.ascii (secretServer value) ⟨5⟩ ⟨str "app"⟩)).1

/-- The response is written, and nothing else goes wrong. -/
def undisturbed (response : Response) : Exchange where
  received := wire response

theorem delivers_undisturbed (response : Response) : Delivers 1 (undisturbed response) response :=
  ⟨by decide, rfl, rfl, rfl, rfl⟩

theorem text_secret_applied :
    Applies (requestOnce (str "/run/kernelseal/kernelseal.sock") 1
      (undisturbed (issuedResponse (str "s3cr3t")))) (issuedResponse (str "s3cr3t")) := by
  have hkeys : (issuedResponse (str "s3cr3t")).env.keys = {str "TOKEN"} := by decide +kernel
  refine (applies_iff (by decide +kernel) (delivers_undisturbed _) _).2
    ⟨by decide +kernel, ?_⟩
  rw [toJson, mapMembers, hkeys, Finset.sort_singleton]
  decide +kernel

/-- A secret that is not UTF-8 is issued, and the shim does not apply it. -/
theorem binary_secret_altered :
    (issuedResponse [0xFF]).ok = true ∧
      (issuedResponse [0xFF]).env.lookup (str "TOKEN") = some [0xFF] ∧
      Delivers 1 (undisturbed (issuedResponse [0xFF])) (issuedResponse [0xFF]) ∧
      ¬ Applies (requestOnce (str "/run/kernelseal/kernelseal.sock") 1
        (undisturbed (issuedResponse [0xFF]))) (issuedResponse [0xFF]) := by
  have hok : (issuedResponse [0xFF]).ok = true := by decide +kernel
  refine ⟨hok, by decide +kernel, delivers_undisturbed _, fun happlies => ?_⟩
  have hvalid := (valid_of_applies hok (delivers_undisturbed _) happlies).1.1
  exact absurd hvalid (by decide +kernel)

end KernelSeal.Shim
