import KernelSeal.Server.Exchange
import KernelSeal.Shim.Retry

/-!
# From the registry to the target's environment

The shim sends its request as JSON, a connection of the agent decodes it and replies, and the
shim reads as much of the reply as arrives.  This file follows an entry of the environment in
which the target is started back through both programs to the binding it comes from.
-/

namespace KernelSeal.Handshake

open KernelSeal.Text
open KernelSeal.Utf8
open KernelSeal.Json
open KernelSeal.Registry
open KernelSeal.Resumption
open KernelSeal.Resumption.Prog
open KernelSeal.Delivery
open KernelSeal.Serving
open KernelSeal.Connection (preamble)
open KernelSeal.Authorization (source source_admitted exists_source_of_served)
open KernelSeal.Exchange
open KernelSeal.Shim (Iteration ValidEnv assignment equals exists_key_of_lookup
  lookup_index maxMessageSize mergeEnv mergeEnv_eq ofJson_sanitize_toJson sanitizeEnv_eq_self_iff
  sanitizeMembers_eq_map sanitizeResponse secretServer toJson values values_mergeEnv wire)
open KernelSeal.Retry (Options Outcome Started exists_started_app readResponse secretText
  shortOptions started_of_main trace)

/-! ## The request on the wire -/

/-- What the shim writes for a request. -/
def requestText (binary : GoString) : GoString :=
  encode (.object [(str "binary", .string binary)]) ++ [10]

/-- Store a member in the field of its name, which the encoder writes exactly so; Go also
accepts it in other cases. -/
def assignRequest (req : Request) (member : GoString × Value) : Option Request :=
  if member.1 = str "binary" then
    match member.2 with
    | .string text => some { req with binary := text }
    | _ => none
  else some req

/-- JSON as a `protocol.Request`. -/
def requestOfJson : Value → Option Request
  | .object members => members.foldlM assignRequest { binary := [] }
  | _ => none

/-- What `Decode` of the agent makes of the bytes that its limited reader lets through. -/
def readRequest (bytes : GoString) : Option Request :=
  (decode (bytes.take maxMessageSize)).bind requestOfJson

/-- The agent reads the request that was sent, if it is short enough, with the path made
valid. -/
theorem readRequest_requestText {binary : GoString}
    (hfits : (encode (.object [(str "binary", .string binary)])).length ≤ maxMessageSize) :
    readRequest (requestText binary) = some { binary := sanitize binary } := by
  rw [readRequest, requestText, List.take_append, List.take_of_length_le hfits, decode_encode,
    Option.bind_some, Value.sanitize, sanitizeMembers_eq_map, requestOfJson]
  have hkey : sanitize (str "binary") = str "binary" := sanitize_of_valid (by decide)
  simp [assignRequest, hkey, Value.sanitize]

/-! ## The connection of the two -/

/-- Whatever arrives of a written response is read as that response, made valid, or not at
all. -/
theorem readResponse_of_isPrefix {bytes : GoString} {response read : Response}
    (hbytes : bytes <+: wire response) (hread : readResponse bytes = some read) :
    read = sanitizeResponse response := by
  have htake : bytes.take maxMessageSize =
      (wire response).take (min maxMessageSize bytes.length) := by
    rw [← List.take_take, ← List.prefix_iff_eq_take.1 hbytes]
  rw [readResponse, htake, wire] at hread
  by_cases hcut : min maxMessageSize bytes.length < (encode (toJson response)).length
  · rw [List.take_append_of_le_length hcut.le, decode_take hcut] at hread
    cases hread
  · rw [List.take_append, List.take_of_length_le (not_lt.1 hcut), decode_encode, Option.bind_some,
      ofJson_sanitize_toJson] at hread
    exact (Option.some.inj hread).symm

/-- The bytes are the beginning of what a connection of the agent with these calls wrote in
reply, and if it decoded a request, that is what the text of a request for this binary is
read as. -/
structure Replied (unicode : Unicode) (server : Server) (binary bytes : GoString)
    (connection : List Step) : Prop where
  ran : ∃ final, Path (handleConn unicode server) connection final
  wrote : ∃ response replyErr, ⟨.reply response, replyErr⟩ ∈ connection ∧ bytes <+: wire response
  decoded : ∀ req, ⟨.decode, .ok req⟩ ∈ connection → readRequest (requestText binary) = some req

/-- An answer has been read from something that was received. -/
theorem exists_received {calls : List Retry.Step} {response : Response}
    (hanswer : .answer response ∈ trace calls) :
    ∃ received, ⟨.receive, received⟩ ∈ calls ∧ readResponse received.bytes = some response := by
  obtain ⟨⟨op, result⟩, hstep, hobserved⟩ := List.mem_filterMap.1 hanswer
  cases op with
  | receive =>
      obtain ⟨read, hread, hsame⟩ := Option.map_eq_some_iff.1 hobserved
      cases hsame
      exact ⟨result, hstep, hread⟩
  | _ => cases hobserved

/-- So has the answer that the shim had when it started its target. -/
theorem exists_received_of_started {options : Options} {argv : List GoString}
    {calls : List Retry.Step} {path : GoString} {args env : List GoString}
    {response answer : Response}
    (hstarted : Started options argv calls path args env response (some answer)) :
    ∃ received, ⟨.receive, received⟩ ∈ calls ∧ readResponse received.bytes = some answer := by
  obtain ⟨remainings, htrace⟩ := hstarted.traced
  apply exists_received
  rw [htrace]
  exact List.mem_append_right _ List.mem_cons_self

/-- What a connection that handled a request with these calls and outcomes found out and did
before it replied with an entry of the environment of the target. -/
structure Released (server : Server) (outcomes : Outcomes) (cred : Ucred) (req : Request)
    (handled : List Step) (kv name value : GoString) (binding : Binding) : Prop where
  judged : Judged server outcomes req
  delivers : Serving.Delivers server outcomes
  source_eq : source server.bindings (base req.binary) (caller server outcomes) name = some binding
  admitted : binding.Admitted (base req.binary) (caller server outcomes)
  supplied : ⟨name, value⟩ ∈ binding.secrets
  entry : kv = assignment (sanitize name) (sanitize value)
  identifies : identifyCalls server outcomes cred.pid.toUInt32 <+: handled
  protects : server.cfg.requireProtection = true →
    ⟨.protectPID cred.pid.toUInt32, none⟩ ∈ handled

/-- An entry that the read response adds to an environment was released. -/
theorem released_of_entry {unicode : Unicode} {server : Server} {outcomes : Outcomes} {cred : Ucred}
    {req : Request} {connection handled : List Step} {response : Response}
    (hexchanged : Exchanged unicode server connection cred req outcomes response handled)
    {environ : List GoString} (order : Iteration (sanitizeResponse response).env)
    {kv : GoString} (hkv : kv ∈ mergeEnv environ _ order) :
    kv ∈ environ ∨
      ∃ name value binding, Released server outcomes cred req handled kv name value binding := by
  rw [mergeEnv_eq] at hkv
  rcases List.mem_append.1 hkv with hinherited | hadded
  · exact Or.inl (List.mem_of_mem_filter hinherited)
  · obtain ⟨name, hname, rfl⟩ := List.mem_map.1 hadded
    have hlookup := lookup_index (Finmap.mem_keys.2 ((order.mem_iff name).1 hname))
    obtain ⟨key, hkey, hname, hvalue⟩ := exists_key_of_lookup hlookup
    have henv : response.env ≠ ∅ := by
      intro hempty
      rw [hempty] at hkey
      exact absurd hkey (by simp)
    have hserved : (serve unicode server outcomes cred req).1.env.lookup key =
        some (response.env.index key) := by
      rw [hexchanged.served]
      exact lookup_index hkey
    obtain ⟨hjudged, hdelivers, binding, hsource, hsupplied⟩ := exists_source_of_served hserved
    obtain ⟨start, hhandled⟩ := hexchanged.handled_eq henv
    exact Or.inr ⟨key, _, binding, {
      judged := hjudged
      delivers := hdelivers
      source_eq := hsource
      admitted := (source_admitted hsource).2
      supplied := hsupplied
      entry := by rw [hname, hvalue]
      identifies := hhandled ▸ List.prefix_append _ _
      protects := hexchanged.protectPID_mem henv }⟩

/-! ## A secret on its way -/

/-- What the connection of a shim that asks for `/bin/app` is answered. -/
def appAnswers : (op : Op) → op.Ans
  | .setDeadline => none
  | .isUnixConn => true
  | .peerCred => .ok ⟨5⟩
  | .decode => .ok ⟨str "/bin/app"⟩
  | .identify _ => ({}, none)
  | .processStartTime _ => .ok 1
  | .protectPID _ | .trackPID _ | .unprotectPID _ => none
  | .onIssued _ _ | .onDenied _ _ => ()
  | .reply _ => none
  | .listProtectedPIDs => .ok []
  | .alive _ => true

def appServer : Server := secretServer (str "x")

def appConnection : Unit × List Step :=
  run (fun _ => appAnswers) [] (handleConn Unicode.ascii appServer)

def appResponse : Response :=
  (run (fun _ => appAnswers) (preamble ⟨5⟩ ⟨str "/bin/app"⟩)
    (handle Unicode.ascii appServer ⟨5⟩ ⟨str "/bin/app"⟩)).1

theorem appConnection_eq : appConnection.2 = preamble ⟨5⟩ ⟨str "/bin/app"⟩ ++
    (run (fun _ => appAnswers) (preamble ⟨5⟩ ⟨str "/bin/app"⟩)
      (handle Unicode.ascii appServer ⟨5⟩ ⟨str "/bin/app"⟩ >>= fun response =>
        reply response >>= fun _ => pure ())).2 := rfl

theorem reply_mem_appConnection : ⟨.reply appResponse, none⟩ ∈ appConnection.2 := by
  rw [appConnection_eq, run_bind]
  exact List.mem_append_right _ (List.mem_append_right _ List.mem_cons_self)

theorem keys_appResponse : appResponse.env.keys = {str "TOKEN"} := by decide +kernel

theorem encode_appResponse : encode (toJson appResponse) = secretText := by
  rw [toJson, Shim.mapMembers, keys_appResponse, Finset.sort_singleton]
  decide +kernel

theorem secretText_prefix_wire : secretText <+: wire appResponse :=
  ⟨[10], by rw [wire, encode_appResponse]⟩

/-- The connection replies to the request of a shim that starts `/bin/app`. -/
theorem replied_secretText :
    Replied Unicode.ascii appServer (str "/bin/app") secretText appConnection.2 := by
  refine ⟨⟨_, path_run _ _ _⟩, ⟨appResponse, none, reply_mem_appConnection,
    secretText_prefix_wire⟩, fun req hdecode => ?_⟩
  have hreq : (.ok req : Except GoError Request) = .ok ⟨str "/bin/app"⟩ := answer_of_mem_run hdecode
  cases hreq
  rw [readRequest_requestText (by decide +kernel), sanitize_of_valid (by decide)]

/-- If the shim talks to the agent, then every entry that its target has and did not inherit
is a secret of a binding that admits the caller for the binary that is started: the caller
that the very connection identified which wrote the reply, after it had seen that caller
protected, or protection is not required.  Without an answer that serves, the target is
started only if the shim was told to continue, with what it inherits. -/
theorem target_environment_released (unicode : Unicode) (server : Server)
    (durationText : ℤ → GoString) (options : Options) (argv : List GoString) (rounds : ℕ)
    {calls : List Retry.Step} {path : GoString} {args env : List GoString}
    {next : Retry.Err → Retry.Program Outcome}
    (hpath : Path (Retry.main unicode durationText options argv rounds) calls
      (call (.exec path args env) next))
    (connections : Set (List Step))
    (hagent : ∀ received, ⟨.receive, received⟩ ∈ calls →
      ∃ connection ∈ connections, Replied unicode server path received.bytes connection) :
    ∃ environ, ⟨.environ, environ⟩ ∈ calls ∧
      ((options.onError = str "continue" ∧ env = environ) ∨
        ∃ received, ⟨.receive, received⟩ ∈ calls ∧
        ∃ connection ∈ connections, ∃ cred req handled written replyErr,
          connection = preamble cred req ++ handled ++ [⟨.reply written, replyErr⟩] ∧
          received.bytes <+: wire written ∧ readRequest (requestText path) = some req ∧
          ∃ outcomes, serve unicode server outcomes cred req = (written, handled) ∧
            ∀ kv ∈ env, kv ∈ environ ∨ ∃ name value binding,
              Released server outcomes cred req handled kv name value binding) := by
  obtain ⟨response, answer, hstarted⟩ := started_of_main hpath
  obtain ⟨environ, order, henviron, rfl⟩ := hstarted.merged
  refine ⟨environ, henviron, ?_⟩
  rcases hstarted.decided with ⟨rfl, hok⟩ | ⟨hcontinue, rfl, _⟩
  · obtain ⟨received, hreceived, hread⟩ := exists_received_of_started hstarted
    obtain ⟨connection, hconnection, hreplied⟩ := hagent received hreceived
    obtain ⟨final, hran⟩ := hreplied.ran
    obtain ⟨written, replyErr, hreply, hbytes⟩ := hreplied.wrote
    obtain rfl := readResponse_of_isPrefix hbytes hread
    have hsaid (error : GoString) : written ≠ { error := error } := by
      rintro rfl
      cases hok
    obtain ⟨cred, req, outcomes, handled, hexchanged⟩ := exists_exchanged hran hreply hsaid
    obtain ⟨sent, hmade⟩ := hexchanged.made
    have hdecode : ⟨.decode, .ok req⟩ ∈ connection := by simp [hmade, preamble]
    exact Or.inr ⟨received, hreceived, connection, hconnection, cred, req, handled, written, sent,
      hmade, hbytes, hreplied.decoded req hdecode, outcomes, hexchanged.served,
      fun kv hkv => released_of_entry hexchanged order hkv⟩
  · exact Or.inl ⟨hcontinue, if_pos rfl⟩

theorem app_environment_released :
    ∃ calls args env next,
      Path (Retry.main Unicode.ascii (fun _ => str "15s") shortOptions [str "app"] 60) calls
        (call (.exec (str "/bin/app") args env) next) ∧
      ∃ environ cred req handled written replyErr outcomes, ⟨.environ, environ⟩ ∈ calls ∧
        appConnection.2 = preamble cred req ++ handled ++ [⟨.reply written, replyErr⟩] ∧
        serve Unicode.ascii appServer outcomes cred req = (written, handled) ∧
        ∀ kv ∈ env, kv ∈ environ ∨ ∃ name value binding,
          Released appServer outcomes cred req handled kv name value binding := by
  obtain ⟨calls, args, env, next, hpath, hreceived⟩ := exists_started_app
  have hagent (received : Retry.Received) (hmem : ⟨.receive, received⟩ ∈ calls) :
      ∃ connection ∈ ({appConnection.2} : Set (List Step)),
        Replied Unicode.ascii appServer (str "/bin/app") received.bytes connection :=
    ⟨_, rfl, hreceived received hmem ▸ replied_secretText⟩
  obtain ⟨environ, henviron, hcontinued | ⟨received, _, connection, hconnection, cred, req, handled,
      written, replyErr, hmade, _, _, outcomes, hserve, hreleased⟩⟩ :=
    target_environment_released Unicode.ascii appServer (fun _ => str "15s") shortOptions
      [str "app"] 60 hpath {appConnection.2} hagent
  · exact absurd hcontinued.1 (by decide)
  · obtain rfl := Set.mem_singleton_iff.1 hconnection
    exact ⟨calls, args, env, next, hpath, environ, cred, req, handled, written, replyErr, outcomes,
      henviron, hmade, hserve, hreleased⟩

/-! ## A response that arrives -/

/-- A response that arrives is read, made valid, unless it is too long. -/
theorem readResponse_of_encode {bytes : GoString} {response : Response}
    (hbytes : encode (toJson response) <+: bytes) :
    readResponse bytes =
      if (encode (toJson response)).length ≤ maxMessageSize then some (sanitizeResponse response)
      else none := by
  obtain ⟨rest, rfl⟩ := hbytes
  rw [readResponse]
  split_ifs with hfits
  · rw [List.take_append, List.take_of_length_le hfits, decode_encode, Option.bind_some,
      ofJson_sanitize_toJson]
  · have hcut : maxMessageSize < (encode (toJson response)).length := not_le.1 hfits
    rw [List.take_append_of_le_length hcut.le, decode_take hcut]
    rfl

/-- If the agent has served the request with valid names and values, then the target finds
exactly these under their names and what it inherits under all others.  A response that is
too long is as good as none. -/
theorem target_finds_secrets (unicode : Unicode) (durationText : ℤ → GoString) (options : Options)
    (argv : List GoString) (rounds : ℕ) {calls : List Retry.Step} {path : GoString}
    {args env : List GoString} {next : Retry.Err → Retry.Program Outcome}
    (hpath : Path (Retry.main unicode durationText options argv rounds) calls
      (call (.exec path args env) next))
    {response : Response} (hok : response.ok = true) (hvalid : ValidEnv response.env)
    (hnames : ∀ name ∈ response.env, equals ∉ name)
    (hreached : ∃ received, ⟨.receive, received⟩ ∈ calls)
    (hreceived : ∀ received, ⟨.receive, received⟩ ∈ calls →
      encode (toJson response) <+: received.bytes) :
    ∃ environ, ⟨.environ, environ⟩ ∈ calls ∧
      if (encode (toJson response)).length ≤ maxMessageSize then
        ∀ name, values env name =
          if name ∈ response.env then [response.env.index name] else values environ name
      else options.onError = str "continue" ∧ env = environ := by
  obtain ⟨used, answer, hstarted⟩ := started_of_main hpath
  obtain ⟨environ, order, henviron, rfl⟩ := hstarted.merged
  obtain ⟨remainings, htrace⟩ := hstarted.traced
  refine ⟨environ, henviron, ?_⟩
  split_ifs with hfits
  · obtain ⟨received, hmem⟩ := hreached
    have hanswer : .answer (sanitizeResponse response) ∈ trace calls := by
      refine List.mem_filterMap.2 ⟨_, hmem, ?_⟩
      rw [Retry.observe, readResponse_of_encode (hreceived received hmem), if_pos hfits]
      rfl
    have hanswered : answer = some (sanitizeResponse response) := by
      rw [htrace] at hanswer
      simpa using hanswer
    have hserved : (sanitizeResponse response).ok = true := hok
    rcases hstarted.decided with ⟨hused, _⟩ | ⟨_, _, hrefused⟩
    · obtain rfl : sanitizeResponse response = used :=
        Option.some.inj (hanswered.symm.trans hused)
      have henv : (sanitizeResponse response).env = response.env :=
        sanitizeEnv_eq_self_iff.2 hvalid
      intro name
      rw [values_mergeEnv environ order (henv ▸ hnames), henv]
    · exact absurd hserved (by rw [hrefused _ hanswered]; exact Bool.false_ne_true)
  · have hunanswered : answer = none := by
      by_contra hanswer
      obtain ⟨read, rfl⟩ := Option.ne_none_iff_exists'.1 hanswer
      obtain ⟨received, hmem, hdecoded⟩ := exists_received_of_started hstarted
      rw [readResponse_of_encode (hreceived received hmem), if_neg hfits] at hdecoded
      cases hdecoded
    rcases hstarted.decided with ⟨hused, _⟩ | ⟨hcontinue, rfl, _⟩
    · cases hunanswered.symm.trans hused
    · exact ⟨hcontinue, if_pos rfl⟩

theorem app_finds_secret :
    ∃ calls args env next,
      Path (Retry.main Unicode.ascii (fun _ => str "15s") shortOptions [str "app"] 60) calls
        (call (.exec (str "/bin/app") args env) next) ∧
      values env (str "TOKEN") = [str "x"] := by
  obtain ⟨calls, args, env, next, hpath, hbytes⟩ := exists_started_app
  obtain ⟨response, answer, hstarted⟩ := started_of_main hpath
  have hreached : ∃ received, ⟨.receive, received⟩ ∈ calls := by
    rcases hstarted.decided with ⟨rfl, _⟩ | ⟨hcontinue, _⟩
    · obtain ⟨received, hreceived, _⟩ := exists_received_of_started hstarted
      exact ⟨received, hreceived⟩
    · exact absurd hcontinue (by decide)
  have hok : appResponse.ok = true := by decide +kernel
  have hname (name : GoString) (hmem : name ∈ appResponse.env) : name = str "TOKEN" :=
    Finset.mem_singleton.1 (keys_appResponse ▸ Finmap.mem_keys.2 hmem)
  have hvalid : ValidEnv appResponse.env := by
    intro name hmem
    rw [hname name (Finmap.mem_keys.1 hmem)]
    decide +kernel
  have hnames : ∀ name ∈ appResponse.env, equals ∉ name := by
    intro name hmem
    rw [hname name hmem]
    decide +kernel
  obtain ⟨environ, _, hvalues⟩ := target_finds_secrets Unicode.ascii (fun _ => str "15s")
    shortOptions [str "app"] 60 hpath hok hvalid hnames hreached
    (fun received hmem => by rw [hbytes received hmem, encode_appResponse])
  rw [if_pos (by rw [encode_appResponse]; decide +kernel)] at hvalues
  refine ⟨calls, args, env, next, hpath, ?_⟩
  rw [hvalues, if_pos (by decide +kernel)]
  decide +kernel

end KernelSeal.Handshake
