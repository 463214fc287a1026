import Mathlib.Data.List.TakeDrop
import Mathlib.Data.List.TakeWhile
import NodeProvisioner.Proofs.Calls.Logs
import NodeProvisioner.Proofs.Codec.Machines
import NodeProvisioner.Proofs.Json.Arrangement
import NodeProvisioner.Proofs.Json.Reading
import NodeProvisioner.Proofs.Kube.Exchanges

/-!
# Issued tokens

A token is good for nothing until the cluster keeps a secret for it. So issuing sends one request,
which puts the secret where the issuer keeps its secrets, and hands the token out only if the answer
is a secret too. What the request says of the token is read from its body, and not from the secret
that the body has been written from.

A lifetime is a number of seconds of sixty-four bits, and a configuration may ask for any but none.
There are two limits to what can be made of it: lifetimes that cannot be stated in milliseconds, and
expirations beyond the calendar. Only the first is looked out for.

Main statements: `TokenIssuer.createToken_registers`, `Provisioner.createToken_answers_iff`.
-/

namespace NodeProvisioner

open Program (Rules Ends logging ends_bind)

/-! ## Documents -/

/-- Of several values of one key the last counts. -/
theorem StringMap.get?_ofList {α : Type} (entries : List (String × α)) (key : String) :
    (ofList entries).get? key = entries.reverse.lookup key := by
  rw [get?, entries_ofList, lookup_foldl_insertEntry_last]
  cases entries.reverse.lookup key <;> rfl

/-- An object that has each name once keeps its members in its canonical form. -/
theorem Json.member_canonical {members : List (String × Json)} (once : (members.map (·.1)).Nodup)
    (name : String) : (obj members).canonical.member name = ((obj members).member name).canonical := by
  have once : ((canonicalMembers members).map (·.1)).Nodup := by
    rw [canonicalMembers_eq, List.map_map]
    exact once
  have found : (sortMembers (canonicalMembers members)).lookup name
      = (members.lookup name).map canonical :=
    (lookup_sortMembers once name).trans (Codec.among_canonicalMembers members name)
  rw [canonical, member, member?, found, member, member?]
  cases members.lookup name <;> rfl

/-- The member of a map of texts. -/
theorem Codec.member_textMap {m : StringMap String} {key value : String}
    (h : m.get? key = some value) : ((dict text).write m).canonical.member key = .str value := by
  have once : ((m.entries.map fun e => (e.1, text.write e.2)).map (·.1)).Nodup := by
    rw [List.map_map]
    exact List.pairwise_map.mpr (m.sorted.imp fun lt => String.ne_of_lt lt)
  have found : (m.entries.map fun e => (e.1, text.write e.2)).lookup key = some (.str value) :=
    (StringMap.lookup_map text.write key m.entries).trans (congrArg (Option.map text.write) h)
  refine (Json.member_canonical once key).trans ?_
  rw [Json.member, Json.member?, found]
  rfl

namespace BootstrapToken

/-- The document is the secret by which the cluster knows the token: it belongs into a namespace,
and is good until some time. -/
structure IsDeclaredBy (t : BootstrapToken) (namespaceText : String) (expiration : Timestamp)
    (document : Json) : Prop where
  apiVersion : document.member "apiVersion" = .str "v1"
  kind : document.member "kind" = .str "Secret"
  use : document.member "type" = .str "bootstrap.kubernetes.io/token"
  name : (document.member "metadata").member "name" = .str ("bootstrap-token-" ++ t.idText)
  place : (document.member "metadata").member "namespace" = .str namespaceText
  id : (document.member "stringData").member "token-id" = .str t.idText
  secret : (document.member "stringData").member "token-secret" = .str t.secretText
  expiration : (document.member "stringData").member "expiration" = .str expiration.print

variable (t : BootstrapToken) (namespaceText : String) (expiration : Timestamp)

/-- A token is its identifier and its secret, with a point between them. -/
theorem toText_eq : t.toText = t.idText ++ "." ++ t.secretText := by
  rw [toText, idText, secretText, ← String.toList_inj]
  simp

/-- The members of the secret of a token, in the order in which they are written. -/
def secretMembers : List (String × Json) :=
  [("apiVersion", .str "v1"), ("kind", .str "Secret"),
    ("metadata", .obj [("name", .str t.secretName), ("namespace", .str namespaceText)]),
    ("stringData", (Codec.dict Codec.text).write (t.secretData expiration)),
    ("type", .str tokenSecretKind)]

theorem write_secretFor : Codec.secret.write (t.secretFor namespaceText expiration) =
    .obj (t.secretMembers namespaceText expiration) := rfl

/-- **The text of the secret of a token says so.** -/
theorem exists_declared : ∃ document,
    Json.parse (Codec.secret.write (t.secretFor namespaceText expiration)).print = .ok document ∧
      t.IsDeclaredBy namespaceText expiration document := by
  have texts := Codec.carries_textMap 0 (t.secretData expiration)
  have data (key value : String) (h : (t.secretData expiration).get? key = some value) :
      ((Codec.dict Codec.text).write (t.secretData expiration)).canonical.member key
        = .str value := Codec.member_textMap h
  rw [write_secretFor]
  refine ⟨_, Json.parse_print ?_ ?_, ?_⟩
  · simp [secretMembers, Json.isPlain, Json.membersPlain, texts.plain]
  · have shallow := texts.shallow
    simp only [secretMembers, Json.depth, Json.membersDepth, Json.depthLimit]
    omega
  · have outer : ((t.secretMembers namespaceText expiration).map (·.1)).Nodup :=
      show ["apiVersion", "kind", "metadata", "stringData", "type"].Nodup by decide
    have inner : (([("name", .str t.secretName), ("namespace", .str namespaceText)] :
        List (String × Json)).map (·.1)).Nodup := show ["name", "namespace"].Nodup by decide
    constructor
    all_goals rw [Json.member_canonical outer]
    · rfl
    · rfl
    · rfl
    · exact Json.member_canonical inner "name"
    · exact Json.member_canonical inner "namespace"
    · exact data _ _ (StringMap.get?_ofList _ _)
    · exact data _ _ (StringMap.get?_ofList _ _)
    · exact data _ _ (StringMap.get?_ofList _ _)

theorem isTokenPart_replicate (size : Nat) : IsTokenPart size (List.replicate size 'a') :=
  ⟨List.length_replicate, fun _ mem => List.eq_of_mem_replicate mem ▸ by decide⟩

/-- Two blocks of random bytes, all of which have come out as zero. -/
def zeros : List (List UInt8) := [List.replicate 32 0, List.replicate 32 0]

/-- The token that zeros make. -/
def ofZeros : BootstrapToken where
  id := List.replicate 6 'a'
  secret := List.replicate 16 'a'
  isId := isTokenPart_replicate 6
  isSecret := isTokenPart_replicate 16

/-- A token is made of the characters drawn. -/
theorem generate_eq_some {t : BootstrapToken} {blocks others rest : List (List UInt8)}
    (id : draw 6 blocks = some (t.id, others)) (secret : draw 16 others = some (t.secret, rest)) :
    generate blocks = some (t, rest) := by
  simp only [generate, id, secret, Option.bind_eq_bind, Option.bind_some]
  exact dif_pos ⟨t.isId, t.isSecret⟩

theorem generate_zeros : generate zeros = some (ofZeros, []) :=
  have id : draw 6 zeros = some (ofZeros.id, [List.replicate 32 0]) := by decide
  have secret : draw 16 [List.replicate 32 0] = some (ofZeros.secret, []) := by decide
  generate_eq_some id secret

theorem toText_ofZeros : ofZeros.toText = "aaaaaa.aaaaaaaaaaaaaaaa" := by decide

end BootstrapToken

/-! ## Targets -/

/-- A part of a target that has no mark that ends it is all path. -/
theorem Target.path?_eq_some {target path : String} (h : Target.path? target = some path)
    (unmarked : ∀ c ∈ target.toList, c ≠ '?' ∧ c ≠ '#') : path = target := by
  have all : target.toList.takeWhile (fun c => decide (c ≠ '?' ∧ c ≠ '#')) = target.toList :=
    List.takeWhile_eq_self_iff.mpr fun c mem => decide_eq_true (unmarked c mem)
  simp only [path?, List.span_eq_takeWhile_dropWhile, all] at h
  split_ifs at h
  cases h
  exact String.ofList_toList

/-- Where the secrets of a namespace are. -/
theorem target_secrets (namespaceText : String) :
    secrets.target namespaceText = "/api/v1/namespaces/" ++ namespaceText ++ "/secrets" := by
  have start : "/api/v1" ++ "/namespaces/" = "/api/v1/namespaces/" := rfl
  have ending : "/" ++ "secrets" = "/secrets" := rfl
  rw [← start, ← ending, ← String.append_assoc]
  rfl

/-- The secrets of a namespace are where its name says, if no mark in it ends the path. -/
theorem path_secrets {namespaceText path : String}
    (h : Target.path? (secrets.target namespaceText) = some path)
    (unmarked : ∀ c ∈ namespaceText.toList, c ≠ '?' ∧ c ≠ '#') :
    path = "/api/v1/namespaces/" ++ namespaceText ++ "/secrets" := by
  rw [target_secrets] at h
  refine Target.path?_eq_some h fun c mem => ?_
  rw [String.toList_append, String.toList_append, List.mem_append, List.mem_append] at mem
  have start : ∀ c ∈ "/api/v1/namespaces/".toList, c ≠ '?' ∧ c ≠ '#' := by simp
  have ending : ∀ c ∈ "/secrets".toList, c ≠ '?' ∧ c ≠ '#' := by simp
  obtain (mem | mem) | mem := mem
  · exact start c mem
  · exact unmarked c mem
  · exact ending c mem

/-- A resource comes from a response. -/
theorem Collection.exists_response {α : Type} {c : Collection α} {answer : Except String HttpResponse}
    {a : α} (h : c.result answer = .ok a) :
    ∃ response, answer = .ok response ∧ response.resource c.codec = .ok a := by
  cases answer with
  | error message => cases h
  | ok response => exact ⟨response, rfl, h⟩

/-! ## Issuing -/

namespace TokenIssuer

variable (i : TokenIssuer) {token : BootstrapToken} {expiration : Timestamp}

/-- A request registers a token with the cluster: it puts the secret of the token among those of
the namespace. -/
structure Registers (token : BootstrapToken) (expiration : Timestamp) (request : HttpRequest) :
    Prop where
  method : request.method = .post
  target : Target.path? (secrets.target i.namespaceText) = some request.path
  body : ∃ document, Json.parse request.body = .ok document ∧
    token.IsDeclaredBy i.namespaceText expiration document

/-- What is handed out when the registration has been answered. -/
def handedOut (token : BootstrapToken) (answer : Except String HttpResponse) :
    Except BootstrapError String :=
  match secrets.result answer with
  | .ok _ => .ok token.toText
  | .error e => .error (.tokenCreation e.message)

/-- **A token is registered by one request, and the answer decides what is handed out**, unless
there is no way to send it. -/
theorem ends_register {σ : Type} {rules : Rules HttpRequest.Answer σ} {s t : σ}
    {r : Option (Except BootstrapError String)} :
    (i.register token expiration).Ends rules s r t ↔
      (∃ e, Collection.request .post (secrets.target i.namespaceText)
          (Codec.secret.write (token.secretFor i.namespaceText expiration)).print = .error e ∧
        r = some (.error (.tokenCreation e.message)) ∧ t = s) ∨
      ∃ request answer, Collection.request .post (secrets.target i.namespaceText)
          (Codec.secret.write (token.secretFor i.namespaceText expiration)).print = .ok request ∧
        rules request s answer t ∧ r = some (handedOut token answer) := by
  rw [register, ends_bind]
  constructor
  · rintro (⟨result, u, sent, rfl, rfl⟩ | ⟨rfl, sent⟩)
    · obtain ⟨e, refused, eq, rfl⟩ | ⟨request, answer, eq, rule, own⟩ :=
        Collection.ends_send_iff.mp sent
      · cases eq
        exact .inl ⟨e, refused, rfl, rfl⟩
      · cases own
        refine .inr ⟨request, answer, eq, rule, ?_⟩
        unfold handedOut
        cases secrets.result answer <;> rfl
    · obtain ⟨_, _, ⟨⟩, _⟩ | ⟨_, _, _, _, ⟨⟩⟩ := Collection.ends_send_iff.mp sent
  · rintro (⟨e, refused, rfl, rfl⟩ | ⟨request, answer, eq, rule, rfl⟩)
    · exact .inl ⟨_, _, Collection.ends_send_iff.mpr (.inl ⟨e, refused, rfl, rfl⟩), rfl, rfl⟩
    · refine .inl ⟨_, _, Collection.ends_send_iff.mpr (.inr ⟨request, answer, eq, rule, rfl⟩),
        ?_, rfl⟩
      unfold handedOut
      cases secrets.result answer <;> rfl

/-- A lifetime within the calendar can be stated in milliseconds. -/
theorem lifetime_le {lifetime : Nat} {now : Timestamp} (since : 0 ≤ now.seconds)
    (early : now.seconds + lifetime ≤ Timestamp.lastSecond) : lifetime ≤ longestLifetime := by
  have last : Timestamp.lastSecond ≤ longestLifetime := by decide
  omega

variable {i} {now : Timestamp} {blocks rest : List (List UInt8)}

/-- Without random bytes there is no token. -/
theorem createToken_of_none (h : BootstrapToken.generate blocks = none) :
    i.createToken now blocks = .done (.error (.tokenCreation "cryptographic RNG unavailable")) := by
  rw [createToken, h]

/-- A lifetime that cannot be stated in milliseconds is refused. -/
theorem createToken_of_long (h : BootstrapToken.generate blocks = some (token, rest))
    (long : longestLifetime < i.lifetime) :
    i.createToken now blocks = .done (.error (.tokenCreation
      "invalid token ttl: Source duration value is out of range for the target type")) := by
  rw [createToken, h]
  exact if_pos long

/-- A token that expires within the calendar is registered. -/
theorem createToken_of_early (h : BootstrapToken.generate blocks = some (token, rest))
    (short : i.lifetime ≤ longestLifetime)
    (early : now.seconds + i.lifetime ≤ Timestamp.lastSecond) :
    i.createToken now blocks = i.register token ⟨now.seconds + i.lifetime, now.nanos⟩ := by
  have expires : i.expiration? now = some ⟨now.seconds + i.lifetime, now.nanos⟩ := if_pos early
  rw [createToken, h]
  simp only [if_neg (Nat.not_lt.mpr short), expires]

/-- There is nothing to go on with if a token would expire beyond the calendar. -/
theorem createToken_of_late (h : BootstrapToken.generate blocks = some (token, rest))
    (short : i.lifetime ≤ longestLifetime)
    (late : Timestamp.lastSecond < now.seconds + i.lifetime) :
    i.createToken now blocks = .abort := by
  have none : i.expiration? now = none := if_neg (Int.not_le.mpr late)
  rw [createToken, h]
  simp only [if_neg (Nat.not_lt.mpr short), none]

/-- A registration comes to its end. -/
theorem answers_of_register {σ : Type} {rules : Rules HttpRequest.Answer σ} {s t : σ}
    {r : Option (Except BootstrapError String)} (h : (i.register token expiration).Ends rules s r t) :
    (∃ text, r = some (.ok text)) ∨ ∃ message, r = some (.error (.tokenCreation message)) := by
  obtain ⟨_, _, rfl, _⟩ | ⟨_, answer, _, _, rfl⟩ := i.ends_register.mp h
  · exact .inr ⟨_, rfl⟩
  · unfold handedOut
    cases secrets.result answer with
    | ok _ => exact .inl ⟨_, rfl⟩
    | error _ => exact .inr ⟨_, rfl⟩

/-- **A token that is handed out is registered.** Issuing sends no request, and then nothing is
handed out; or it sends one that registers the token drawn, good for the lifetime of the issuer. The
token is handed out if the answer is a secret, and if it is not, issuing fails. -/
theorem createToken_registers (i : TokenIssuer) {now : Timestamp} (blocks : List (List UInt8))
    (clock : 0 ≤ now.seconds ∧ now.nanos < 1000000000)
    (early : now.seconds + i.lifetime ≤ Timestamp.lastSecond)
    {r : Option (Except BootstrapError String)} {log : List (Sigma HttpRequest.Answer)}
    (issued : (i.createToken now blocks).Ends logging [] r log) :
    (log = [] ∧ (∃ message, r = some (.error (.tokenCreation message))) ∧
      (BootstrapToken.generate blocks = none ∨
        Target.maxSize < (secrets.target i.namespaceText).utf8ByteSize ∨
        Target.path? (secrets.target i.namespaceText) = none)) ∨
    ∃ token rest expiration request answer,
      BootstrapToken.generate blocks = some (token, rest) ∧
      Timestamp.parse expiration.print = .ok ⟨now.seconds + i.lifetime, 0⟩ ∧
      log = [⟨request, answer⟩] ∧
      i.Registers token expiration request ∧
      ((∀ c ∈ i.namespaceText.toList, c ≠ '?' ∧ c ≠ '#') →
        request.path = "/api/v1/namespaces/" ++ i.namespaceText ++ "/secrets") ∧
      ((∃ response secret, answer = .ok response ∧
          response.resource Codec.secret = .ok secret ∧
          r = some (.ok (token.idText ++ "." ++ token.secretText))) ∨
        ∃ e, secrets.result answer = .error e ∧
          r = some (.error (.tokenCreation e.message))) := by
  cases drawn : BootstrapToken.generate blocks with
  | none =>
    rw [createToken_of_none drawn] at issued
    exact .inl ⟨issued.2, ⟨_, issued.1⟩, .inl rfl⟩
  | some found =>
    obtain ⟨token, rest⟩ := found
    have expires : (⟨now.seconds + i.lifetime, now.nanos⟩ : Timestamp).IsInCalendar := by
      have first : Timestamp.firstSecond ≤ 0 := by decide
      refine ⟨?_, early, ?_, ?_⟩
      all_goals simp only
      all_goals omega
    have parsed := Timestamp.parse_print_eq expires
    rw [Timestamp.truncated, if_neg (Nat.not_le.mpr clock.2)] at parsed
    rw [createToken_of_early drawn (lifetime_le clock.1 early) early] at issued
    obtain ⟨e, refused, rfl, rfl⟩ | ⟨request, answer, sent, rfl, rfl⟩ := i.ends_register.mp issued
    · exact .inl ⟨rfl, ⟨_, rfl⟩, .inr (Collection.refused_of_request refused)⟩
    · obtain ⟨-, path, target, rfl⟩ := Collection.request_eq_ok_iff.mp sent
      refine .inr ⟨token, rest, _, _, answer, rfl, parsed, rfl,
        ⟨rfl, target, token.exists_declared _ _⟩, path_secrets target, ?_⟩
      unfold handedOut
      cases result : secrets.result answer with
      | error e => exact .inr ⟨e, rfl, rfl⟩
      | ok secret =>
        obtain ⟨response, rfl, read⟩ := Collection.exists_response result
        exact .inl ⟨response, secret, rfl, read, congrArg _ (congrArg _ token.toText_eq)⟩

/-- A token drawn from zeros is handed out when the API server answers with a secret, and it is the
token that the request has told of. -/
theorem createToken_registers_answered :
    let i : TokenIssuer := ⟨"kube-system", 600⟩
    let now : Timestamp := ⟨1795132800, 5⟩
    let answer : Except String HttpResponse :=
      .ok ⟨201, "\x7b\"apiVersion\":\"v1\",\"kind\":\"Secret\"\x7d"⟩
    (0 ≤ now.seconds ∧ now.nanos < 1000000000) ∧
      now.seconds + i.lifetime ≤ Timestamp.lastSecond ∧
      ∃ request : HttpRequest,
        (i.createToken now BootstrapToken.zeros).Ends logging []
          (some (.ok "aaaaaa.aaaaaaaaaaaaaaaa")) [⟨request, answer⟩] ∧
        request.path = "/api/v1/namespaces/kube-system/secrets" ∧
        ∃ document, Json.parse request.body = .ok document ∧
          (document.member "metadata").member "name" = .str "bootstrap-token-aaaaaa" ∧
          (document.member "stringData").member "token-secret" = .str "aaaaaaaaaaaaaaaa" := by
  intro i now answer
  have clock : 0 ≤ now.seconds ∧ now.nanos < 1000000000 := by decide
  have early : now.seconds + i.lifetime ≤ Timestamp.lastSecond := by decide
  refine ⟨clock, early, ?_⟩
  have answered : (secrets.result answer).isOk = true := by decide +kernel
  obtain ⟨secret, kept⟩ : ∃ secret, secrets.result answer = .ok secret := by
    cases eq : secrets.result answer with
    | error e =>
      rw [eq] at answered
      cases answered
    | ok secret => exact ⟨secret, rfl⟩
  have fits : (secrets.target i.namespaceText).utf8ByteSize ≤ Target.maxSize := by decide +kernel
  have path : Target.path? (secrets.target i.namespaceText)
      = some "/api/v1/namespaces/kube-system/secrets" := by decide +kernel
  have short : i.lifetime ≤ longestLifetime := by decide
  have drawn := BootstrapToken.generate_zeros
  -- the rest need not know what the issuer, the time, the answer and the random bytes are
  clear_value i now answer
  generalize BootstrapToken.zeros = blocks at drawn ⊢
  obtain ⟨request, own, issued⟩ : ∃ request : HttpRequest,
      request.path = "/api/v1/namespaces/kube-system/secrets" ∧
      (i.createToken now blocks).Ends logging []
        (some (.ok "aaaaaa.aaaaaaaaaaaaaaaa")) [⟨request, answer⟩] := by
    rw [createToken_of_early drawn short early]
    refine ⟨⟨.post, _, _⟩, rfl, i.ends_register.mpr (.inr ⟨_, answer,
      Collection.request_eq_ok_iff.mpr ⟨fits, _, path, rfl⟩, rfl, ?_⟩)⟩
    unfold handedOut
    rw [kept]
    exact congrArg (some ∘ Except.ok) BootstrapToken.toText_ofZeros.symm
  refine ⟨request, issued, own, ?_⟩
  obtain ⟨silent, _⟩ | ⟨token, rest, expiration, _, _, found, _, eq, registers, _⟩ :=
    createToken_registers i blocks clock early issued
  · cases silent
  · obtain ⟨rfl, _⟩ := Prod.mk.inj (Option.some.inj (drawn.symm.trans found))
    obtain ⟨rfl, _⟩ := Sigma.mk.inj (List.cons.inj eq).1
    obtain ⟨document, parsed, declared⟩ := registers.body
    have name : "bootstrap-token-" ++ BootstrapToken.ofZeros.idText = "bootstrap-token-aaaaaa" := by
      decide
    have secret : BootstrapToken.ofZeros.secretText = "aaaaaaaaaaaaaaaa" := by decide
    exact ⟨document, parsed, declared.name.trans (congrArg Json.str name),
      declared.secret.trans (congrArg Json.str secret)⟩

end TokenIssuer

/-! ## Lifetimes -/

/-- A configuration is valid if tokens last for some time, boot disks have a size, and pauses do not
shrink. -/
theorem Config.validate_eq_ok_iff {c : Config} : c.validate = .ok () ↔
    c.tokenLifetime ≠ 0 ∧ ¬ c.minBootDiskSize ≤ 0 ∧ ¬ c.polling.multiplier < 1.0 := by
  rw [validate]
  split_ifs with none empty shrinks
  · exact ⟨nofun, fun valid => absurd none valid.1⟩
  · exact ⟨nofun, fun valid => absurd empty valid.2.1⟩
  · exact ⟨nofun, fun valid => absurd shrinks valid.2.2⟩
  · exact ⟨fun _ => ⟨none, empty, shrinks⟩, fun _ => rfl⟩

namespace Parts

variable {S : SignatureSystem} {files : Files} {parts : Parts} {p : Provisioner}

/-- What a provisioner is put together from. -/
theorem assemble_eq_ok_iff : parts.assemble S files = .ok p ↔
    parts.config.validate = .ok () ∧ ∃ recordsByApi tokensByApi setups authority,
      parts.leftToApi parts.hasStore "a machine store or kubernetes client is required"
        = .ok recordsByApi ∧
      parts.leftToApi parts.hasIssuer "a token issuer or kubernetes client is required"
        = .ok tokensByApi ∧
      parts.chooseSetups files = .ok setups ∧ parts.chooseAuthority S files = .ok authority ∧
      p = { provisions := ⟨setups, authority, parts.config⟩, recordsByApi, tokensByApi } := by
  constructor
  · intro h
    obtain ⟨⟨⟩, valid, h⟩ := bind_eq_ok_iff.mp h
    obtain ⟨recordsByApi, records, h⟩ := bind_eq_ok_iff.mp h
    obtain ⟨tokensByApi, tokens, h⟩ := bind_eq_ok_iff.mp h
    obtain ⟨setups, given, h⟩ := bind_eq_ok_iff.mp h
    obtain ⟨authority, chosen, h⟩ := bind_eq_ok_iff.mp h
    exact ⟨valid, _, _, _, _, records, tokens, given, chosen, (Except.ok.inj h).symm⟩
  · rintro ⟨valid, _, _, _, _, records, tokens, given, chosen, rfl⟩
    rw [assemble, valid, records, tokens, given, chosen]
    rfl

/-- **A provisioner is put together whatever the lifetime of tokens is**, so long as there is
one. -/
theorem assemble_lifetime (assembled : parts.assemble S files = .ok p) {lifetime : UInt64}
    (lasts : lifetime ≠ 0) :
    ({ parts with config.tokenLifetime := lifetime } : Parts).assemble S files
      = .ok { p with provisions.config.tokenLifetime := lifetime } := by
  obtain ⟨valid, _, _, _, _, records, tokens, given, chosen, rfl⟩ := assemble_eq_ok_iff.mp assembled
  obtain ⟨-, sized, grows⟩ := Config.validate_eq_ok_iff.mp valid
  exact assemble_eq_ok_iff.mpr ⟨Config.validate_eq_ok_iff.mpr ⟨lasts, sized, grows⟩,
    _, _, _, _, records, tokens, given, chosen, rfl⟩

end Parts

namespace Provisioner

/-- **For which lifetimes issuing comes to its end**, with a token or a refusal, whatever the API
server answers: those that are too long to be stated, which are refused, and those that end within
the calendar. A provisioner is put together for all the others as well. -/
theorem createToken_answers_iff {S : SignatureSystem} {files : Files} {parts : Parts}
    {p : Provisioner} (assembled : parts.assemble S files = .ok p) (now : Timestamp)
    (blocks : List (List UInt8)) :
    ((∀ r log, (p.issuer.createToken now blocks).Ends logging [] r log →
        (∃ text, r = some (.ok text)) ∨ ∃ message, r = some (.error (.tokenCreation message))) ↔
      BootstrapToken.generate blocks = none ∨
        longestLifetime < parts.config.tokenLifetime.toNat ∨
        now.seconds + parts.config.tokenLifetime.toNat ≤ Timestamp.lastSecond) ∧
    ∀ lifetime ≠ 0, ∃ other,
      ({ parts with config.tokenLifetime := lifetime } : Parts).assemble S files = .ok other ∧
        other.issuer = ⟨parts.config.tokenNamespace, lifetime.toNat⟩ := by
  obtain ⟨-, _, _, _, _, -, -, -, -, rfl⟩ := Parts.assemble_eq_ok_iff.mp assembled
  refine ⟨⟨fun answers => ?_, fun limits r log issued => ?_⟩, fun lifetime lasts =>
    ⟨_, Parts.assemble_lifetime assembled lasts, rfl⟩⟩
  · by_contra beyond
    simp only [not_or, Int.not_le, Nat.not_lt] at beyond
    obtain ⟨some, short, late⟩ := beyond
    obtain ⟨⟨token, rest⟩, drawn⟩ := Option.ne_none_iff_exists'.mp some
    have aborts := answers none [] (by
      rw [TokenIssuer.createToken_of_late drawn short late]
      exact ⟨rfl, rfl⟩)
    obtain ⟨_, ⟨⟩⟩ | ⟨_, ⟨⟩⟩ := aborts
  · cases drawn : BootstrapToken.generate blocks with
    | none =>
      rw [TokenIssuer.createToken_of_none drawn] at issued
      exact .inr ⟨_, issued.1⟩
    | some found =>
      obtain ⟨token, rest⟩ := found
      have beyond := limits.resolve_left (drawn ▸ nofun)
      by_cases long : longestLifetime < parts.config.tokenLifetime.toNat
      · rw [TokenIssuer.createToken_of_long drawn long] at issued
        exact .inr ⟨_, issued.1⟩
      · rw [TokenIssuer.createToken_of_early drawn (Nat.not_lt.mp long)
          (beyond.resolve_left long)] at issued
        exact TokenIssuer.answers_of_register issued

/-- The lifetime of ten minutes that tokens have by default. -/
theorem createToken_answers_default :
    ∃ p, ({ setups := some default, config := {} } : Parts).assemble .elliptic default = .ok p ∧
      ∀ r log, (p.issuer.createToken ⟨1795132800, 0⟩ BootstrapToken.zeros).Ends logging [] r log →
        (∃ text, r = some (.ok text)) ∨ ∃ message, r = some (.error (.tokenCreation message)) := by
  have assembled : ({ setups := some default, config := {} } : Parts).assemble .elliptic default
      = .ok { provisions := ⟨default, none, {}⟩, recordsByApi := false, tokensByApi := false } :=
    Parts.assemble_eq_ok_iff.mpr
      ⟨Config.validate_eq_ok_iff.mpr ⟨by decide, by decide, by decide +kernel⟩,
        _, _, _, _, rfl, rfl, rfl, rfl, rfl⟩
  exact ⟨_, assembled,
    (createToken_answers_iff assembled ⟨1795132800, 0⟩ BootstrapToken.zeros).1.mpr
      (.inr (.inr (by decide)))⟩

/-- A configuration with a lifetime of three hundred million years is valid, and no token can be
issued with it: there is neither a token nor a refusal. -/
theorem not_createToken_answers : ¬ ∀ c : Config, c.validate = .ok () →
    ∀ r log, ((⟨c.tokenNamespace, c.tokenLifetime.toNat⟩ : TokenIssuer).createToken
        ⟨1795132800, 0⟩ BootstrapToken.zeros).Ends logging [] r log →
      (∃ text, r = some (.ok text)) ∨ ∃ message, r = some (.error (.tokenCreation message)) := by
  intro answers
  have valid : ({ tokenLifetime := 9000000000000000 } : Config).validate = .ok () :=
    Config.validate_eq_ok_iff.mpr ⟨by decide, by decide, by decide +kernel⟩
  have aborts : (⟨"kube-system", 9000000000000000⟩ : TokenIssuer).createToken ⟨1795132800, 0⟩
      BootstrapToken.zeros = .abort :=
    TokenIssuer.createToken_of_late BootstrapToken.generate_zeros (by decide) (by decide)
  obtain ⟨_, ⟨⟩⟩ | ⟨_, ⟨⟩⟩ := answers _ valid none [] (by
    rw [show UInt64.toNat 9000000000000000 = 9000000000000000 from rfl, aborts]
    exact ⟨rfl, rfl⟩)

end Provisioner

end NodeProvisioner
