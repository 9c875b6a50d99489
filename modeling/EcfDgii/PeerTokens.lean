import EcfDgii.EmisorReceptorController

/-!
Seeds and tokens of the exchange between taxpayers.

`Exact` states what each step of a schedule may do with them: a seed is taken in
time and once, a token goes to the request that took a seed, and a token is
accepted for one hour with the subject it was given to.  A seed counts as issued
at the moment its answer states as `fecha`, a token at its `expedido`.  `Books`
is the invariant of the two tables with what has happened, and `books_step` its
step; UUIDs that never repeat are the assumption (`FreshUuids`).
-/

set_option autoImplicit false

namespace EcfDgii.PeerTokens

open EcfDgii.Text EcfDgii.Timestamps EcfDgii.CanonicalRequestHelper
open EcfDgii.Programs EcfDgii.Execution EcfDgii.EmisorReceptorController EcfDgii.Separators

/-! ## The property -/

/-- Requests of peers under way. -/
abbrev Peers := Pool Endpoint Exchange Unit World

/-- What has happened, with who asked. -/
abbrev History := List (ℕ × Event Exchange)

/-- The endpoints at work, from empty tables. -/
def exchange (lib : Libraries) (endpoints : ℕ → Endpoint) (clock : ℕ) : Peers :=
  Pool.start (handler lib) endpoints ⟨clock, fun _ => none, fun _ => none⟩

def drew (uuid : String) : Event Exchange := ⟨.newUuid, uuid⟩

def momentRead (now : ℕ) : Event Exchange := ⟨.now, now⟩

def seedStored (valor : String) (expiresAt : ℕ) : Event Exchange :=
  ⟨.issueSeed valor expiresAt, ()⟩

def seedTaken (valor : String) : Event Exchange := ⟨.consumeSeed valor, true⟩

def tokenStored (token : String) (expiresAt : ℕ) (subject : String) : Event Exchange :=
  ⟨.issueToken token expiresAt subject, ()⟩

def asked (token : String) (subject : Option String) : Event Exchange := ⟨.authorize token, subject⟩

/-- How long a seed can be used. -/
def tenMinutes : ℕ := 10 * 60 * second

/-- How long a token is accepted. -/
def oneHour : ℕ := 60 * 60 * second

/-- `getSemilla` has issued a seed at a moment. -/
def SeedIssued (history : History) (valor : String) (now : ℕ) : Prop :=
  ∃ t, (t, momentRead now) ∈ history ∧ (t, seedStored valor (now + tenMinutes)) ∈ history

/-- `validarSemilla` has issued a token at a moment, with a subject. -/
def TokenIssued (history : History) (token : String) (now : ℕ) (subject : String) : Prop :=
  ∃ t, (t, momentRead now) ∈ history ∧ (t, tokenStored token (now + oneHour) subject) ∈ history

/-- The seed of a posted XML. -/
def seedOf (lib : Libraries) (req : PeerRequest) : Option String :=
  (lib.xmlReadMemory (extractXmlContent req)).map (xpathValue · "//*[local-name()='valor']")

/-- A request posts a seed to `validarSemilla`. -/
def Posts (lib : Libraries) (valor : String) (op : Endpoint) : Prop :=
  ∃ req, op = .validarSemilla req ∧ seedOf lib req = some valor

/-- A token has been issued for a seed. -/
def YieldsToken (lib : Libraries) (endpoints : ℕ → Endpoint) (valor : String)
    (e : ℕ × Event Exchange) : Prop :=
  (∃ token expiresAt subject, e.2 = tokenStored token expiresAt subject) ∧
    Posts lib valor (endpoints e.1)

/-- A step of a schedule treats seeds and tokens exactly. -/
structure Exact (lib : Libraries) (endpoints : ℕ → Endpoint) (p : Peers) (t : ℕ) (i : Input) :
    Prop where
  /-- A seed that is taken was issued at most ten minutes ago, and is the posted one. -/
  seeds : ∀ valor, p.nextEvent exchangeHost t i = some (seedTaken valor) →
    Posts lib valor (endpoints t) ∧
      ∃ now, SeedIssued p.history valor now ∧ p.world.clock + i.elapsed ≤ now + tenMinutes
  /-- A token is issued to a request that has taken its seed, and is the first for it. -/
  tokens : ∀ token expiresAt subject,
    p.nextEvent exchangeHost t i = some (tokenStored token expiresAt subject) →
      token ≠ "" ∧ (∃ now, (t, momentRead now) ∈ p.history ∧ expiresAt = now + oneHour) ∧
        ∃ valor, Posts lib valor (endpoints t) ∧ (t, seedTaken valor) ∈ p.history ∧
          ∀ e ∈ p.history, ¬ YieldsToken lib endpoints valor e
  /-- A token is accepted exactly when it was issued at most an hour ago, with its subject. -/
  authorized : ∀ token found, p.nextEvent exchangeHost t i = some (asked token found) →
    ∀ subject, found = some subject ↔
      ∃ now, TokenIssued p.history token now subject ∧
        p.world.clock + i.elapsed ≤ now + oneHour

/-- The UUIDs drawn. -/
def drawn (history : History) : List String :=
  history.filterMap fun e =>
    match e.2 with
    | ⟨.newUuid, uuid⟩ => some uuid
    | _ => none

/-- A UUID is drawn. -/
def Draws : Option PeerQuestion → Bool
  | some .newUuid => true
  | _ => false

/-- UUIDs never repeat. -/
def FreshUuids (p : Peers) : Move Input → Prop
  | .kill _ => True
  | .step t i => Draws (p.thread t).request = true → newUuid i.bytes ∉ drawn p.history

instance (p : Peers) : (m : Move Input) → Decidable (FreshUuids p m)
  | .kill _ => .isTrue trivial
  | .step t i => inferInstanceAs (Decidable
      (Draws (p.thread t).request = true → newUuid i.bytes ∉ drawn p.history))

/-! ## UUIDs without hyphens -/

theorem drawn_spec {history : History} {uuid : String} :
    uuid ∈ drawn history ↔ ∃ t, (t, drew uuid) ∈ history := by
  unfold drawn
  rw [List.mem_filterMap]
  constructor
  · rintro ⟨⟨t, r, x⟩, member, same⟩
    cases r with
    | newUuid =>
      cases Option.some.inj same
      exact ⟨t, member⟩
    | _ => exact absurd same nofun
  · rintro ⟨t, member⟩
    exact ⟨_, member, rfl⟩

theorem digitChar_ne_hyphen : ∀ n < 16, Nat.digitChar n ≠ '-' := by decide

theorem filter_hex (bytes : List UInt8) :
    (bytes.flatMap hexByte).filter (· ≠ '-') = bytes.flatMap hexByte := by
  refine List.filter_eq_self.mpr fun c member => decide_eq_true ?_
  obtain ⟨byte, -, here⟩ := List.mem_flatMap.mp member
  have bound := byte.toNat_lt
  simp only [hexByte, List.mem_cons, List.not_mem_nil, or_false] at here
  rcases here with rfl | rfl
  · exact digitChar_ne_hyphen _ (by omega)
  · exact digitChar_ne_hyphen _ (by omega)

theorem marked_length (bytes : Fin 16 → UInt8) : (marked bytes).length = 16 := by
  simp [marked]

theorem cut_drop {α : Type} (l : List α) (n m : ℕ) :
    l.drop n = (l.drop n).take m ++ l.drop (n + m) := by
  rw [← List.drop_drop, List.take_append_drop]

/-- Without its hyphens a UUID is the digits of its bytes. -/
theorem stripHyphens_newUuid (bytes : Fin 16 → UInt8) :
    (stripHyphens (newUuid bytes)).toList = (marked bytes).flatMap hexByte := by
  have last : (marked bytes).drop 10 = ((marked bytes).drop 10).take 6 := by
    rw [List.take_of_length_le]
    simp [marked_length]
  have parts : marked bytes = (marked bytes).take 4 ++ (((marked bytes).drop 4).take 2 ++
      (((marked bytes).drop 6).take 2 ++ (((marked bytes).drop 8).take 2 ++
        ((marked bytes).drop 10).take 6))) :=
    (List.take_append_drop 4 _).symm.trans (congrArg (_ ++ ·) ((cut_drop _ 4 2).trans
      (congrArg (_ ++ ·) ((cut_drop _ 6 2).trans (congrArg (_ ++ ·) ((cut_drop _ 8 2).trans
        (congrArg (_ ++ ·) last)))))))
  conv_rhs => rw [parts]
  simp only [stripHyphens, newUuid, String.toList_ofList, List.filter_append, List.filter_cons,
    filter_hex, List.flatMap_append, List.drop_zero]
  simp

theorem stripHyphens_injective {a b : Fin 16 → UInt8}
    (same : stripHyphens (newUuid a) = stripHyphens (newUuid b)) : newUuid a = newUuid b := by
  have digits := congrArg String.toList same
  rw [stripHyphens_newUuid, stripHyphens_newUuid] at digits
  have bytes : marked a = marked b := hex_injective digits
  simp only [newUuid, bytes]

theorem stripHyphens_ne_empty (bytes : Fin 16 → UInt8) : stripHyphens (newUuid bytes) ≠ "" := by
  intro empty
  have digits := congrArg (List.length ∘ String.toList) empty
  simp [stripHyphens_newUuid, hexByte, marked_length] at digits

/-! ## What the handlers ask -/

variable {lib : Libraries} {endpoints : ℕ → Endpoint} {op : Endpoint} {log : List (Event Exchange)}

/-- What an endpoint may do with seeds and tokens, after what it has seen. -/
inductive HandlerAsks (lib : Libraries) (op : Endpoint) (log : List (Event Exchange)) :
    PeerQuestion → Prop
  | newUuid : HandlerAsks lib op log .newUuid
  | now : HandlerAsks lib op log .now
  | issueSeed {uuid : String} {now : ℕ} (draw : drew uuid ∈ log) (read : momentRead now ∈ log)
      (first : ∀ valor expiresAt, seedStored valor expiresAt ∉ log) :
      HandlerAsks lib op log (.issueSeed uuid (now + tenMinutes))
  | consumeSeed {valor : String} (posts : Posts lib valor op) :
      HandlerAsks lib op log (.consumeSeed valor)
  | cmpCurrentTime (time : Option ℤ) : HandlerAsks lib op log (.cmpCurrentTime time)
  | issueToken {valor uuid subject : String} {now : ℕ} (posts : Posts lib valor op)
      (taken : seedTaken valor ∈ log) (draw : drew uuid ∈ log) (read : momentRead now ∈ log)
      (first : ∀ token expiresAt subject, tokenStored token expiresAt subject ∉ log) :
      HandlerAsks lib op log (.issueToken (stripHyphens uuid) (now + oneHour) subject)
  | authorize (token : String) : HandlerAsks lib op log (.authorize token)
  | resolve (rnc : String) : HandlerAsks lib op log (.resolveTenantSignerOnly rnc)
  | sign (xml rnc : String) : HandlerAsks lib op log (.signXml xml rnc)
  | respond (response : Engine.HttpResponse) : HandlerAsks lib op log (.respond response)

/-- A handler keeps to what it may ask. -/
def Keeps {α : Type} (lib : Libraries) (op : Endpoint) (log : List (Event Exchange))
    (p : Handler α) : Prop :=
  p.Follows (.logging (HandlerAsks lib op)) (fun _ _ => True) (fun _ _ => True) log

theorem respond_keeps (response : Engine.HttpResponse) :
    Keeps lib op log (ask (.respond response)) :=
  (follows_logging_perform _).mpr ⟨.respond response, fun _ => trivial⟩

theorem getSemilla_keeps : Keeps lib op [] getSemilla := by
  refine (follows_logging_bind _ _).mpr ⟨.newUuid, fun uuid => ?_⟩
  refine (follows_logging_bind _ _).mpr ⟨.now, fun now => ?_⟩
  refine (follows_logging_bind _ _).mpr ⟨?_, fun _ => respond_keeps _⟩
  refine .issueSeed (List.mem_cons_self) (List.mem_cons_of_mem _ List.mem_cons_self) ?_
  intro valor expiresAt member
  rcases List.mem_cons.mp member with same | member
  · cases (Event.mk.inj same).1
  · cases (Event.mk.inj (List.mem_singleton.mp member)).1

/-- A seed has been taken, and no token issued. -/
def Pending (valor : String) (log : List (Event Exchange)) : Prop :=
  seedTaken valor ∈ log ∧ ∀ token expiresAt subject, tokenStored token expiresAt subject ∉ log

theorem Pending.append {valor : String} (pending : Pending valor log) {e : Event Exchange}
    (other : ∀ token expiresAt subject, e ≠ tokenStored token expiresAt subject) :
    Pending valor (log ++ [e]) := by
  refine ⟨List.mem_append_left _ pending.1, fun token expiresAt subject member => ?_⟩
  rcases List.mem_append.mp member with before | new
  · exact pending.2 token expiresAt subject before
  · exact other token expiresAt subject (List.mem_singleton.mp new).symm

theorem validateX509Certificate_follows {valor : String} (pending : Pending valor log)
    (certBase64 : String) :
    (validateX509Certificate lib certBase64).Follows (.logging (HandlerAsks lib op))
      (fun b _ => Pending valor b) (fun _ _ => True) log := by
  unfold validateX509Certificate
  refine .ite (fun _ => pending) fun _ => ?_
  split
  · exact pending
  · next cert decoded =>
    refine (follows_logging_bind _ _).mpr ⟨.cmpCurrentTime _, fun notBefore => ?_⟩
    refine (follows_logging_bind _ _).mpr ⟨.cmpCurrentTime _, fun notAfter => ?_⟩
    have kept := (pending.append (e := ⟨.cmpCurrentTime cert.notBefore, notBefore⟩)
      fun _ _ _ => nofun).append (e := ⟨.cmpCurrentTime cert.notAfter, notAfter⟩) fun _ _ _ => nofun
    exact .ite (fun _ => kept) fun _ => .ite (fun _ => kept) fun _ => kept

theorem validarSemilla_keeps (req : PeerRequest) :
    Keeps lib (.validarSemilla req) [] (validarSemilla lib req) := by
  unfold validarSemilla Keeps
  refine .ite (fun _ => respond_keeps _) fun _ => ?_
  split
  · exact respond_keeps _
  · next doc parsed =>
    refine .ite (fun _ => respond_keeps _) fun _ => ?_
    have posts : Posts lib (xpathValue doc "//*[local-name()='valor']") (.validarSemilla req) :=
      ⟨req, rfl, by simp [seedOf, parsed]⟩
    refine (follows_logging_bind _ _).mpr ⟨.consumeSeed posts, fun taken => ?_⟩
    refine .ite (fun yes => ?_) fun _ => respond_keeps _
    subst yes
    have pending : Pending (xpathValue doc "//*[local-name()='valor']")
        ([] ++ [seedTaken (xpathValue doc "//*[local-name()='valor']")]) := by
      refine ⟨List.mem_cons_self, fun token expiresAt subject member => ?_⟩
      cases (Event.mk.inj (List.mem_singleton.mp member)).1
    have checks : (validateX509Certificate lib (xpathValue doc "//ds:X509Certificate")).Follows
        (.logging (HandlerAsks lib (.validarSemilla req)))
        (fun b _ => Pending (xpathValue doc "//*[local-name()='valor']") b) (fun _ _ => True) _ :=
      validateX509Certificate_follows pending _
    refine Program.Follows.bind checks fun b checked kept => ?_
    cases checked with
    | error certErr => exact respond_keeps _
    | ok subject =>
      refine (follows_logging_bind _ _).mpr ⟨.newUuid, fun uuid => ?_⟩
      refine (follows_logging_bind _ _).mpr ⟨.now, fun now => ?_⟩
      have kept := (kept.append (e := drew uuid) fun _ _ _ => nofun).append (e := momentRead now)
        fun _ _ _ => nofun
      refine (follows_logging_bind _ _).mpr ⟨?_, fun _ => respond_keeps _⟩
      exact .issueToken posts kept.1
        (List.mem_append_left _ (List.mem_append_right _ List.mem_cons_self))
        (List.mem_append_right _ List.mem_cons_self) kept.2

theorem isAuthorizedB2B_follows (req : PeerRequest) :
    (isAuthorizedB2B req).Follows (.logging (HandlerAsks lib op)) (fun _ _ => True)
      (fun _ _ => True) log := by
  unfold isAuthorizedB2B
  refine .ite (fun _ => trivial) fun _ => ?_
  exact (follows_logging_perform _).mpr ⟨.authorize _, fun _ => trivial⟩

theorem recepcioneCF_keeps (req : PeerRequest) : Keeps lib op [] (recepcioneCF lib req) := by
  unfold recepcioneCF Keeps
  refine Program.Follows.bind (isAuthorizedB2B_follows req) fun b caller _ => ?_
  split
  · exact respond_keeps _
  · refine .ite (fun _ => respond_keeps _) fun _ => ?_
    split
    · exact respond_keeps _
    · refine .ite (fun _ => respond_keeps _) fun _ => .ite (fun _ => respond_keeps _) fun _ => ?_
      refine (follows_logging_bind _ _).mpr ⟨.resolve _, fun signer => ?_⟩
      refine .ite (fun _ => ?_) fun _ => respond_keeps _
      refine (follows_logging_bind _ _).mpr ⟨.now, fun now => ?_⟩
      refine (follows_logging_bind _ _).mpr ⟨.sign _ _, fun signed => ?_⟩
      cases signed with
      | ok signedArecf => exact respond_keeps _
      | error what => exact respond_keeps _

theorem aprobacionComercial_keeps (req : PeerRequest) :
    Keeps lib op [] (aprobacionComercial lib req) := by
  unfold aprobacionComercial Keeps
  refine Program.Follows.bind (isAuthorizedB2B_follows req) fun b caller _ => ?_
  split
  · exact respond_keeps _
  · refine .ite (fun _ => respond_keeps _) fun _ => ?_
    split
    · exact respond_keeps _
    · refine .ite (fun _ => respond_keeps _) fun _ => .ite (fun _ => respond_keeps _) fun _ =>
        .ite (fun _ => respond_keeps _) fun _ => ?_
      refine (follows_logging_bind _ _).mpr ⟨.resolve _, fun signer => ?_⟩
      exact .ite (fun _ => respond_keeps _) fun _ => respond_keeps _

theorem handler_keeps (lib : Libraries) (op : Endpoint) : Keeps lib op [] (handler lib op) := by
  unfold handler
  cases op with
  | getSemilla => exact getSemilla_keeps
  | validarSemilla req => exact validarSemilla_keeps req
  | recepcioneCF req => exact recepcioneCF_keeps req
  | aprobacionComercial req => exact aprobacionComercial_keeps req

/-! ## The books -/

/-- The two tables and what has happened. -/
structure Books (lib : Libraries) (endpoints : ℕ → Endpoint) (w : World) (history : History) :
    Prop where
  /-- Who has drawn a UUID, alone. -/
  drawnOnce : ∀ t u uuid, (t, drew uuid) ∈ history → (u, drew uuid) ∈ history → t = u
  /-- UUIDs have their form. -/
  drawnForm : ∀ t uuid, (t, drew uuid) ∈ history → ∃ bytes, uuid = newUuid bytes
  /-- A seed was drawn by who issued it, with the moment read. -/
  seedDrawn : ∀ t valor expiresAt, (t, seedStored valor expiresAt) ∈ history →
    (t, drew valor) ∈ history ∧
      ∃ now, (t, momentRead now) ∈ history ∧ expiresAt = now + tenMinutes
  /-- A seed in the table was issued, and has not been taken. -/
  seedThere : ∀ valor expiresAt, w.seeds valor = some expiresAt →
    (∃ t, (t, seedStored valor expiresAt) ∈ history) ∧ ∀ u, (u, seedTaken valor) ∉ history
  /-- A seed that was taken was issued. -/
  takenIssued : ∀ u valor, (u, seedTaken valor) ∈ history →
    ∃ t expiresAt, (t, seedStored valor expiresAt) ∈ history
  /-- A seed is taken once. -/
  takenOnce : ∀ t u valor, (t, seedTaken valor) ∈ history → (u, seedTaken valor) ∈ history → t = u
  /-- A token was issued for a seed its request posted and took. -/
  tokenDrawn : ∀ t token expiresAt subject, (t, tokenStored token expiresAt subject) ∈ history →
    (∃ valor, Posts lib valor (endpoints t) ∧ (t, seedTaken valor) ∈ history) ∧
      (∃ uuid, token = stripHyphens uuid ∧ (t, drew uuid) ∈ history) ∧
      ∃ now, (t, momentRead now) ∈ history ∧ expiresAt = now + oneHour
  /-- A token in the table was issued. -/
  tokenThere : ∀ token active, w.tokens token = some active →
    ∃ t, (t, tokenStored token active.expiresAt active.certSubject) ∈ history
  /-- An issued token is in the table until its time is over. -/
  tokenActive : ∀ t token expiresAt subject, (t, tokenStored token expiresAt subject) ∈ history →
    w.tokens token = some ⟨expiresAt, subject⟩ ∨ expiresAt < w.clock

variable {w : World} {history : History}

theorem books_start (clock : ℕ) : Books lib endpoints ⟨clock, fun _ => none, fun _ => none⟩ [] where
  drawnOnce _ _ _ member := absurd member List.not_mem_nil
  drawnForm _ _ member := absurd member List.not_mem_nil
  seedDrawn _ _ _ member := absurd member List.not_mem_nil
  seedThere _ _ found := nomatch found
  takenIssued _ _ member := absurd member List.not_mem_nil
  takenOnce _ _ _ member := absurd member List.not_mem_nil
  tokenDrawn _ _ _ _ member := absurd member List.not_mem_nil
  tokenThere _ _ found := nomatch found
  tokenActive _ _ _ _ member := absurd member List.not_mem_nil

theorem old_of_ne {t u : ℕ} {x e : Event Exchange} (member : (t, x) ∈ history ++ [(u, e)])
    (other : x ≠ e) : (t, x) ∈ history := by
  rcases List.mem_append.mp member with before | new
  · exact before
  · exact absurd (Prod.mk.inj (List.mem_singleton.mp new)).2 other

theorem mem_snoc {t u : ℕ} {x e : Event Exchange} (member : (t, x) ∈ history ++ [(u, e)]) :
    (t, x) ∈ history ∨ t = u ∧ x = e := by
  rcases List.mem_append.mp member with before | new
  · exact .inl before
  · exact .inr (Prod.mk.inj (List.mem_singleton.mp new))

/-- The tables show no more than before, and tokens go when their time is over. -/
structure Fewer (w w' : World) : Prop where
  clock : w.clock ≤ w'.clock
  seeds : ∀ valor expiresAt, w'.seeds valor = some expiresAt → w.seeds valor = some expiresAt
  tokens : ∀ token active, w'.tokens token = some active → w.tokens token = some active
  kept : ∀ token active, w.tokens token = some active →
    w'.tokens token = some active ∨ active.expiresAt < w'.clock

theorem Fewer.active {w' : World} (fewer : Fewer w w') {token subject : String} {expiresAt : ℕ}
    (h : w.tokens token = some ⟨expiresAt, subject⟩ ∨ expiresAt < w.clock) :
    w'.tokens token = some ⟨expiresAt, subject⟩ ∨ expiresAt < w'.clock := by
  rcases h with there | isOver
  · exact fewer.kept token _ there
  · exact .inr (lt_of_lt_of_le isOver fewer.clock)

/-- An event that neither draws, nor issues, nor takes anything. -/
structure Idle (e : Event Exchange) : Prop where
  drew : ∀ uuid, PeerTokens.drew uuid ≠ e
  seedStored : ∀ valor expiresAt, PeerTokens.seedStored valor expiresAt ≠ e
  seedTaken : ∀ valor, PeerTokens.seedTaken valor ≠ e
  tokenStored : ∀ token expiresAt subject, PeerTokens.tokenStored token expiresAt subject ≠ e

/-- A question that neither draws, nor issues, nor takes anything. -/
def Aside : PeerQuestion → Prop
  | .newUuid => False
  | .issueSeed .. => False
  | .consumeSeed _ => False
  | .issueToken .. => False
  | _ => True

theorem idle_of_aside {r : PeerQuestion} {x : Exchange.Reply r} (aside : Aside r) :
    Idle ⟨r, x⟩ where
  drew uuid same := by
    cases congrArg Event.request same
    exact aside
  seedStored valor expiresAt same := by
    cases congrArg Event.request same
    exact aside
  seedTaken valor same := by
    cases congrArg Event.request same
    exact aside
  tokenStored token expiresAt subject same := by
    cases congrArg Event.request same
    exact aside

theorem Books.idle (b : Books lib endpoints w history) {w' : World} (fewer : Fewer w w') {u : ℕ}
    {e : Event Exchange} (idle : Idle e) : Books lib endpoints w' (history ++ [(u, e)]) where
  drawnOnce t v uuid here there :=
    b.drawnOnce t v uuid (old_of_ne here (idle.drew _)) (old_of_ne there (idle.drew _))
  drawnForm t uuid here := b.drawnForm t uuid (old_of_ne here (idle.drew _))
  seedDrawn t valor expiresAt here := by
    obtain ⟨draw, now, read, long⟩ :=
      b.seedDrawn t valor expiresAt (old_of_ne here (idle.seedStored _ _))
    exact ⟨List.mem_append_left _ draw, now, List.mem_append_left _ read, long⟩
  seedThere valor expiresAt found := by
    obtain ⟨⟨t, issued⟩, untaken⟩ := b.seedThere valor expiresAt (fewer.seeds _ _ found)
    exact ⟨⟨t, List.mem_append_left _ issued⟩,
      fun u here => untaken u (old_of_ne here (idle.seedTaken _))⟩
  takenIssued u valor here := by
    obtain ⟨t, expiresAt, issued⟩ := b.takenIssued u valor (old_of_ne here (idle.seedTaken _))
    exact ⟨t, expiresAt, List.mem_append_left _ issued⟩
  takenOnce t v valor here there :=
    b.takenOnce t v valor (old_of_ne here (idle.seedTaken _)) (old_of_ne there (idle.seedTaken _))
  tokenDrawn t token expiresAt subject here := by
    obtain ⟨⟨valor, posts, taken⟩, ⟨uuid, digits, draw⟩, now, read, long⟩ :=
      b.tokenDrawn t token expiresAt subject (old_of_ne here (idle.tokenStored _ _ _))
    exact ⟨⟨valor, posts, List.mem_append_left _ taken⟩,
      ⟨uuid, digits, List.mem_append_left _ draw⟩, now, List.mem_append_left _ read, long⟩
  tokenThere token active found := by
    obtain ⟨t, issued⟩ := b.tokenThere token active (fewer.tokens _ _ found)
    exact ⟨t, List.mem_append_left _ issued⟩
  tokenActive t token expiresAt subject here :=
    fewer.active (b.tokenActive t token expiresAt subject (old_of_ne here (idle.tokenStored _ _ _)))

/-- The tables may lose what is over while nothing happens. -/
theorem Books.later (b : Books lib endpoints w history) {w' : World} (fewer : Fewer w w') :
    Books lib endpoints w' history :=
  { b with
    seedThere := fun valor expiresAt found => b.seedThere valor expiresAt (fewer.seeds _ _ found)
    tokenThere := fun token active found => b.tokenThere token active (fewer.tokens _ _ found)
    tokenActive := fun t token expiresAt subject here =>
      fewer.active (b.tokenActive t token expiresAt subject here) }

theorem fewer_pass (w : World) (elapsed : ℕ) : Fewer w { w with clock := w.clock + elapsed } where
  clock := Nat.le_add_right _ _
  seeds _ _ found := found
  tokens _ _ found := found
  kept _ _ found := .inl found

theorem fewer_seeds (w : World) :
    Fewer w { w with seeds := pruneExpiredSeeds w.clock w.seeds } where
  clock := le_rfl
  seeds _ _ found := (Option.filter_eq_some_iff.mp found).1
  tokens _ _ found := found
  kept _ _ found := .inl found

theorem fewer_tokens (w : World) :
    Fewer w { w with tokens := pruneExpiredTokens w.clock w.tokens } where
  clock := le_rfl
  seeds _ _ found := found
  tokens _ _ found := (Option.filter_eq_some_iff.mp found).1
  kept token active found := by
    by_cases still : w.clock ≤ active.expiresAt
    · exact .inl (Option.filter_eq_some_iff.mpr ⟨found, decide_eq_true still⟩)
    · exact .inr (by dsimp only; omega)

theorem fewer_expired {token : String} {active : ActiveToken} (there : w.tokens token = some active)
    (isOver : active.expiresAt < w.clock) :
    Fewer w { w with tokens := Function.update w.tokens token none } where
  clock := le_rfl
  seeds _ _ found := found
  tokens other found' found := by
    dsimp only at found
    by_cases same : other = token
    · subst same
      rw [Function.update_self] at found
      cases found
    · rwa [Function.update_of_ne same] at found
  kept other found' found := by
    dsimp only
    by_cases same : other = token
    · subst same
      rw [there] at found
      cases found
      exact .inr isOver
    · exact .inl (by rwa [Function.update_of_ne same])

/-- A UUID that was never drawn. -/
theorem Books.draw (b : Books lib endpoints w history) {u : ℕ} {bytes : Fin 16 → UInt8}
    (fresh : newUuid bytes ∉ drawn history) :
    Books lib endpoints w (history ++ [(u, drew (newUuid bytes))]) := by
  have unseen : ∀ t, (t, drew (newUuid bytes)) ∉ history := fun t member =>
    fresh (drawn_spec.mpr ⟨t, member⟩)
  have same : ∀ {uuid}, drew uuid = drew (newUuid bytes) → uuid = newUuid bytes :=
    fun h => eq_of_heq (Event.mk.inj h).2
  constructor
  · intro t v uuid here there
    rcases mem_snoc here with first | ⟨mine, eq⟩ <;>
      rcases mem_snoc there with second | ⟨mine', eq'⟩
    · exact b.drawnOnce t v uuid first second
    · exact absurd (same eq' ▸ first) (unseen t)
    · exact absurd (same eq ▸ second) (unseen v)
    · exact mine.trans mine'.symm
  · intro t uuid here
    rcases mem_snoc here with before | ⟨-, eq⟩
    · exact b.drawnForm t uuid before
    · exact ⟨bytes, same eq⟩
  · intro t valor expiresAt here
    obtain ⟨draw, now, read, long⟩ := b.seedDrawn t valor expiresAt (old_of_ne here nofun)
    exact ⟨List.mem_append_left _ draw, now, List.mem_append_left _ read, long⟩
  · intro valor expiresAt found
    obtain ⟨⟨t, issued⟩, untaken⟩ := b.seedThere valor expiresAt found
    exact ⟨⟨t, List.mem_append_left _ issued⟩, fun u here => untaken u (old_of_ne here nofun)⟩
  · intro v valor here
    obtain ⟨t, expiresAt, issued⟩ := b.takenIssued v valor (old_of_ne here nofun)
    exact ⟨t, expiresAt, List.mem_append_left _ issued⟩
  · intro t v valor here there
    exact b.takenOnce t v valor (old_of_ne here nofun) (old_of_ne there nofun)
  · intro t token expiresAt subject here
    obtain ⟨⟨valor, posts, taken⟩, ⟨uuid, digits, draw⟩, now, read, long⟩ :=
      b.tokenDrawn t token expiresAt subject (old_of_ne here nofun)
    exact ⟨⟨valor, posts, List.mem_append_left _ taken⟩,
      ⟨uuid, digits, List.mem_append_left _ draw⟩, now, List.mem_append_left _ read, long⟩
  · intro token active found
    obtain ⟨t, issued⟩ := b.tokenThere token active found
    exact ⟨t, List.mem_append_left _ issued⟩
  · intro t token expiresAt subject here
    exact b.tokenActive t token expiresAt subject (old_of_ne here nofun)

/-- A seed stored by who has drawn it, for the first time. -/
theorem Books.storeSeed (b : Books lib endpoints w history) {u now : ℕ} {valor : String}
    (draw : (u, drew valor) ∈ history) (read : (u, momentRead now) ∈ history)
    (first : ∀ valor expiresAt, (u, seedStored valor expiresAt) ∉ history) :
    Books lib endpoints
      { w with seeds := Function.update w.seeds valor (some (now + tenMinutes)) }
      (history ++ [(u, seedStored valor (now + tenMinutes))]) := by
  have untaken : ∀ t, (t, seedTaken valor) ∉ history := by
    intro t taken
    obtain ⟨t', expiresAt, issued⟩ := b.takenIssued t valor taken
    obtain rfl := b.drawnOnce t' u valor (b.seedDrawn t' valor expiresAt issued).1 draw
    exact first valor expiresAt issued
  have same : ∀ {other expiresAt}, seedStored other expiresAt = seedStored valor (now + tenMinutes) →
      expiresAt = now + tenMinutes ∧ other = valor := by
    intro other expiresAt eq
    have request := (Event.mk.inj eq).1
    simp only [PeerQuestion.issueSeed.injEq] at request
    exact request.symm
  constructor
  · intro t v uuid here there
    exact b.drawnOnce t v uuid (old_of_ne here nofun) (old_of_ne there nofun)
  · intro t uuid here
    exact b.drawnForm t uuid (old_of_ne here nofun)
  · intro t other expiresAt here
    rcases mem_snoc here with before | ⟨rfl, eq⟩
    · obtain ⟨drawn, now', read', long⟩ := b.seedDrawn t other expiresAt before
      exact ⟨List.mem_append_left _ drawn, now', List.mem_append_left _ read', long⟩
    · obtain ⟨rfl, rfl⟩ := same eq
      exact ⟨List.mem_append_left _ draw, now, List.mem_append_left _ read, rfl⟩
  · intro other expiresAt found
    dsimp only at found
    by_cases mine : other = valor
    · subst mine
      rw [Function.update_self] at found
      cases found
      exact ⟨⟨u, List.mem_append_right _ List.mem_cons_self⟩,
        fun t here => untaken t (old_of_ne here nofun)⟩
    · rw [Function.update_of_ne mine] at found
      obtain ⟨⟨t, issued⟩, kept⟩ := b.seedThere other expiresAt found
      exact ⟨⟨t, List.mem_append_left _ issued⟩, fun v here => kept v (old_of_ne here nofun)⟩
  · intro v other here
    obtain ⟨t, expiresAt, issued⟩ := b.takenIssued v other (old_of_ne here nofun)
    exact ⟨t, expiresAt, List.mem_append_left _ issued⟩
  · intro t v other here there
    exact b.takenOnce t v other (old_of_ne here nofun) (old_of_ne there nofun)
  · intro t token expiresAt subject here
    obtain ⟨⟨other, posts, taken⟩, ⟨uuid, digits, drawn⟩, now', read', long⟩ :=
      b.tokenDrawn t token expiresAt subject (old_of_ne here nofun)
    exact ⟨⟨other, posts, List.mem_append_left _ taken⟩,
      ⟨uuid, digits, List.mem_append_left _ drawn⟩, now', List.mem_append_left _ read', long⟩
  · intro token active found
    obtain ⟨t, issued⟩ := b.tokenThere token active found
    exact ⟨t, List.mem_append_left _ issued⟩
  · intro t token expiresAt subject here
    exact b.tokenActive t token expiresAt subject (old_of_ne here nofun)

/-- A seed taken from the table. -/
theorem Books.takeSeed (b : Books lib endpoints w history) {u expiresAt : ℕ} {valor : String}
    (there : w.seeds valor = some expiresAt) :
    Books lib endpoints { w with seeds := Function.update w.seeds valor none }
      (history ++ [(u, seedTaken valor)]) := by
  obtain ⟨⟨issuer, stored⟩, untaken⟩ := b.seedThere valor expiresAt there
  have same : ∀ {other}, seedTaken other = seedTaken valor → other = valor := by
    intro other eq
    have request := (Event.mk.inj eq).1
    simpa only [PeerQuestion.consumeSeed.injEq] using request
  constructor
  · intro t v uuid here there
    exact b.drawnOnce t v uuid (old_of_ne here nofun) (old_of_ne there nofun)
  · intro t uuid here
    exact b.drawnForm t uuid (old_of_ne here nofun)
  · intro t other expiresAt here
    obtain ⟨drawn, now, read, long⟩ := b.seedDrawn t other expiresAt (old_of_ne here nofun)
    exact ⟨List.mem_append_left _ drawn, now, List.mem_append_left _ read, long⟩
  · intro other expiresAt found
    dsimp only at found
    by_cases mine : other = valor
    · subst mine
      rw [Function.update_self] at found
      cases found
    · rw [Function.update_of_ne mine] at found
      obtain ⟨⟨t, issued⟩, kept⟩ := b.seedThere other expiresAt found
      refine ⟨⟨t, List.mem_append_left _ issued⟩, fun v here => ?_⟩
      rcases mem_snoc here with before | ⟨-, eq⟩
      · exact kept v before
      · exact mine (same eq)
  · intro v other here
    rcases mem_snoc here with before | ⟨-, eq⟩
    · obtain ⟨t, expiresAt, issued⟩ := b.takenIssued v other before
      exact ⟨t, expiresAt, List.mem_append_left _ issued⟩
    · rw [same eq]
      exact ⟨issuer, expiresAt, List.mem_append_left _ stored⟩
  · intro t v other here there
    rcases mem_snoc here with first | ⟨mine, eq⟩ <;>
      rcases mem_snoc there with second | ⟨mine', eq'⟩
    · exact b.takenOnce t v other first second
    · exact absurd (same eq' ▸ first) (untaken t)
    · exact absurd (same eq ▸ second) (untaken v)
    · exact mine.trans mine'.symm
  · intro t token expiresAt subject here
    obtain ⟨⟨other, posts, taken⟩, ⟨uuid, digits, drawn⟩, now, read, long⟩ :=
      b.tokenDrawn t token expiresAt subject (old_of_ne here nofun)
    exact ⟨⟨other, posts, List.mem_append_left _ taken⟩,
      ⟨uuid, digits, List.mem_append_left _ drawn⟩, now, List.mem_append_left _ read, long⟩
  · intro token active found
    obtain ⟨t, issued⟩ := b.tokenThere token active found
    exact ⟨t, List.mem_append_left _ issued⟩
  · intro t token expiresAt subject here
    exact b.tokenActive t token expiresAt subject (old_of_ne here nofun)

/-- A token is the first with its digits. -/
theorem Books.unissued (b : Books lib endpoints w history) {u : ℕ} {uuid : String}
    (draw : (u, drew uuid) ∈ history)
    (first : ∀ token expiresAt subject, (u, tokenStored token expiresAt subject) ∉ history) (t : ℕ)
    (expiresAt : ℕ) (subject : String) :
    (t, tokenStored (stripHyphens uuid) expiresAt subject) ∉ history := by
  intro issued
  obtain ⟨-, ⟨other, digits, draw'⟩, -⟩ := b.tokenDrawn t _ expiresAt subject issued
  obtain ⟨bytes, rfl⟩ := b.drawnForm u uuid draw
  obtain ⟨bytes', rfl⟩ := b.drawnForm t other draw'
  rw [← stripHyphens_injective digits] at draw'
  obtain rfl := b.drawnOnce t u _ draw' draw
  exact first _ _ _ issued

/-- A token stored by who has drawn its UUID and taken the posted seed. -/
theorem Books.storeToken (b : Books lib endpoints w history) {u now : ℕ}
    {valor uuid subject : String} (posts : Posts lib valor (endpoints u))
    (taken : (u, seedTaken valor) ∈ history) (draw : (u, drew uuid) ∈ history)
    (read : (u, momentRead now) ∈ history)
    (first : ∀ token expiresAt subject, (u, tokenStored token expiresAt subject) ∉ history) :
    Books lib endpoints
      { w with tokens := Function.update w.tokens (stripHyphens uuid)
                (some ⟨now + oneHour, subject⟩) }
      (history ++ [(u, tokenStored (stripHyphens uuid) (now + oneHour) subject)]) := by
  have same : ∀ {token expiresAt subject'}, tokenStored token expiresAt subject' =
      tokenStored (stripHyphens uuid) (now + oneHour) subject →
      token = stripHyphens uuid ∧ expiresAt = now + oneHour ∧ subject' = subject := by
    intro token expiresAt subject' eq
    have request := (Event.mk.inj eq).1
    simpa only [PeerQuestion.issueToken.injEq] using request
  constructor
  · intro t v uuid here there
    exact b.drawnOnce t v uuid (old_of_ne here nofun) (old_of_ne there nofun)
  · intro t uuid here
    exact b.drawnForm t uuid (old_of_ne here nofun)
  · intro t other expiresAt here
    obtain ⟨drawn, now, read, long⟩ := b.seedDrawn t other expiresAt (old_of_ne here nofun)
    exact ⟨List.mem_append_left _ drawn, now, List.mem_append_left _ read, long⟩
  · intro other expiresAt found
    obtain ⟨⟨t, issued⟩, kept⟩ := b.seedThere other expiresAt found
    exact ⟨⟨t, List.mem_append_left _ issued⟩, fun v here => kept v (old_of_ne here nofun)⟩
  · intro v other here
    obtain ⟨t, expiresAt, issued⟩ := b.takenIssued v other (old_of_ne here nofun)
    exact ⟨t, expiresAt, List.mem_append_left _ issued⟩
  · intro t v other here there
    exact b.takenOnce t v other (old_of_ne here nofun) (old_of_ne there nofun)
  · intro t token expiresAt subject' here
    rcases mem_snoc here with before | ⟨rfl, eq⟩
    · obtain ⟨⟨other, posts', taken'⟩, ⟨uuid', digits, drawn⟩, now', read', long⟩ :=
        b.tokenDrawn t token expiresAt subject' before
      exact ⟨⟨other, posts', List.mem_append_left _ taken'⟩,
        ⟨uuid', digits, List.mem_append_left _ drawn⟩, now', List.mem_append_left _ read', long⟩
    · obtain ⟨rfl, rfl, rfl⟩ := same eq
      exact ⟨⟨valor, posts, List.mem_append_left _ taken⟩,
        ⟨uuid, rfl, List.mem_append_left _ draw⟩, now, List.mem_append_left _ read, rfl⟩
  · intro token active found
    dsimp only at found
    by_cases mine : token = stripHyphens uuid
    · subst mine
      rw [Function.update_self] at found
      cases found
      exact ⟨u, List.mem_append_right _ List.mem_cons_self⟩
    · rw [Function.update_of_ne mine] at found
      obtain ⟨t, issued⟩ := b.tokenThere token active found
      exact ⟨t, List.mem_append_left _ issued⟩
  · intro t token expiresAt subject' here
    dsimp only
    rcases mem_snoc here with before | ⟨-, eq⟩
    · have mine : token ≠ stripHyphens uuid := by
        rintro rfl
        exact b.unissued draw first t expiresAt subject' before
      rw [Function.update_of_ne mine]
      exact b.tokenActive t token expiresAt subject' before
    · obtain ⟨rfl, rfl, rfl⟩ := same eq
      exact .inl (Function.update_self ..)

/-! ## Every step -/

/-- The handlers keep to what they may ask, and the books are right. -/
structure Sound (lib : Libraries) (endpoints : ℕ → Endpoint) (p : Peers) : Prop where
  verified : p.Verified (HandlerAsks lib) (fun _ _ _ => True)
  told : p.Told
  operation : ∀ t, (p.thread t).operation = endpoints t
  books : Books lib endpoints p.world p.history

theorem fewer_refl (w : World) : Fewer w w := fewer_pass w 0

theorem fewer_taken (w : World) (valor : String) :
    Fewer w { w with seeds := Function.update w.seeds valor none } where
  clock := le_rfl
  seeds other expiresAt found := by
    dsimp only at found
    by_cases same : other = valor
    · subst same
      rw [Function.update_self] at found
      cases found
    · rwa [Function.update_of_ne same] at found
  tokens _ _ found := found
  kept _ _ found := .inl found

/-- **Step.** What a handler asks keeps the books right. -/
theorem books_step {p : Peers} (sound : Sound lib endpoints p) {t : ℕ} {i : Input}
    {r : PeerQuestion} {next : Exchange.Reply r → Handler Unit}
    (rest : (p.thread t).rest = .ask r next) (fresh : FreshUuids p (.step t i)) :
    Books lib endpoints (exchangeHost.answer i p.world r).2
      (p.history ++ [(t, ⟨r, (exchangeHost.answer i p.world r).1⟩)]) := by
  have permitted := sound.verified.permitted rest
  have b := sound.books.later (fewer_pass p.world i.elapsed)
  have happened : ∀ {e}, e ∈ (p.thread t).log → (t, e) ∈ p.history := (sound.told t _).mpr
  have unhappened : ∀ {e}, e ∉ (p.thread t).log → (t, e) ∉ p.history :=
    fun unseen member => unseen ((sound.told t _).mp member)
  rw [sound.operation t] at permitted
  change Books lib endpoints (answerAt i _ r).2 (p.history ++ [(t, ⟨r, (answerAt i _ r).1⟩)])
  generalize ({ p.world with clock := p.world.clock + i.elapsed } : World) = w at b ⊢
  cases permitted with
  | newUuid => exact b.draw (fresh (by simp [Thread.request, rest, Draws]))
  | now => exact b.idle (fewer_refl w) (idle_of_aside trivial)
  | issueSeed draw read first =>
    exact (b.later (fewer_seeds w)).storeSeed (happened draw) (happened read)
      fun valor expiresAt => unhappened (first valor expiresAt)
  | consumeSeed posts =>
    next valor =>
    have b := b.later (fewer_seeds w)
    cases found : pruneExpiredSeeds w.clock w.seeds valor with
    | some expiresAt =>
      have taken : (answerAt i w (.consumeSeed valor)).1 = true := by simp [answerAt, found]
      rw [taken]
      exact b.takeSeed found
    | none =>
      have missed : (answerAt i w (.consumeSeed valor)).1 = false := by simp [answerAt, found]
      rw [missed]
      refine b.idle (fewer_taken _ valor) ⟨by rintro _ ⟨⟩, by rintro _ _ ⟨⟩, fun other eq => ?_,
        by rintro _ _ _ ⟨⟩⟩
      exact Bool.noConfusion (eq_of_heq (Event.mk.inj eq).2 : true = false)
  | cmpCurrentTime time => exact b.idle (fewer_refl w) (idle_of_aside trivial)
  | issueToken posts taken draw read first =>
    exact (b.later (fewer_tokens w)).storeToken posts (happened taken) (happened draw)
      (happened read) fun token expiresAt subject => unhappened (first token expiresAt subject)
  | authorize token =>
    refine b.idle ?_ (idle_of_aside trivial)
    simp only [answerAt]
    cases there : w.tokens token with
    | none => exact fewer_refl w
    | some active =>
      dsimp only
      split
      · next isOver => exact fewer_expired there isOver
      · exact fewer_refl w
  | resolve rnc => exact b.idle (fewer_refl w) (idle_of_aside trivial)
  | sign xml rnc => exact b.idle (fewer_refl w) (idle_of_aside trivial)
  | respond response => exact b.idle (fewer_refl w) (idle_of_aside trivial)

theorem Sound.move {p : Peers} (sound : Sound lib endpoints p) (m : Move Input)
    (fresh : FreshUuids p m) : Sound lib endpoints (p.move exchangeHost m) := by
  refine ⟨sound.verified.move m, sound.told.move m,
    fun t => (Pool.operation_move m).trans (sound.operation t), ?_⟩
  cases m with
  | kill t => exact sound.books
  | step t i =>
    by_cases running : (p.thread t).Running
    · obtain ⟨r, next, rest⟩ := running
      rw [Pool.move_step rest]
      exact books_step sound rest fresh
    · rw [Pool.move_idle running]
      exact sound.books

theorem sound_start (lib : Libraries) (endpoints : ℕ → Endpoint) (clock : ℕ) :
    Sound lib endpoints (exchange lib endpoints clock) where
  verified _ := handler_keeps lib _
  told := Pool.told_start _ _ _
  operation _ := rfl
  books := books_start clock

/-- A token is accepted while it is in the table and its time is not over. -/
theorem authorize_iff {i : Input} {w : World} {token subject : String} :
    (answerAt i w (.authorize token)).1 = some subject ↔
      ∃ active, w.tokens token = some active ∧ w.clock ≤ active.expiresAt ∧
        active.certSubject = subject := by
  simp only [answerAt]
  cases there : w.tokens token with
  | none => simp
  | some active =>
    by_cases isOver : active.expiresAt < w.clock
    · simp [isOver]
    · simp [isOver, Nat.not_lt.mp isOver]

/-- With the books right, every step is exact. -/
theorem Sound.exact {p : Peers} (sound : Sound lib endpoints p) (t : ℕ) (i : Input) :
    Exact lib endpoints p t i := by
  have books := sound.books
  constructor
  · intro valor happens
    obtain ⟨next, rest, answered⟩ := Pool.nextEvent_some happens
    have permitted := sound.verified.permitted rest
    rw [sound.operation t] at permitted
    cases permitted with
    | consumeSeed posts =>
      refine ⟨posts, ?_⟩
      obtain ⟨expiresAt, found⟩ := Option.isSome_iff_exists.mp answered
      obtain ⟨there, live⟩ := Option.filter_eq_some_iff.mp found
      obtain ⟨⟨u, stored⟩, -⟩ := books.seedThere valor expiresAt there
      obtain ⟨-, now, read, rfl⟩ := books.seedDrawn u valor expiresAt stored
      exact ⟨now, ⟨u, read, stored⟩, of_decide_eq_true live⟩
  · intro token expiresAt subject happens
    obtain ⟨next, rest, -⟩ := Pool.nextEvent_some happens
    have permitted := sound.verified.permitted rest
    rw [sound.operation t] at permitted
    cases permitted with
    | issueToken posts taken draw read first =>
      next valor uuid now =>
      have taken := (sound.told t _).mpr taken
      obtain ⟨bytes, rfl⟩ := books.drawnForm t uuid ((sound.told t _).mpr draw)
      refine ⟨stripHyphens_ne_empty bytes, ⟨now, (sound.told t _).mpr read, rfl⟩, valor, posts, taken,
        ?_⟩
      rintro ⟨u, e⟩ member ⟨⟨other, expiresAt, subject', rfl⟩, req, endpoint, seed⟩
      obtain ⟨⟨valor', ⟨req', endpoint', seed'⟩, taken'⟩, -⟩ := books.tokenDrawn u _ _ _ member
      obtain ⟨rfl⟩ := Endpoint.validarSemilla.inj (endpoint.symm.trans endpoint')
      obtain rfl := Option.some.inj (seed.symm.trans seed')
      obtain rfl := books.takenOnce u t _ taken' taken
      exact first _ _ _ ((sound.told u _).mp member)
  · intro token found happens subject
    obtain ⟨next, rest, rfl⟩ := Pool.nextEvent_some happens
    refine (authorize_iff (i := i)).trans ⟨?_, ?_⟩
    · rintro ⟨active, there, live, rfl⟩
      obtain ⟨u, stored⟩ := books.tokenThere token active there
      obtain ⟨-, -, now, read, long⟩ := books.tokenDrawn u _ _ _ stored
      rw [long] at stored live
      exact ⟨now, ⟨u, read, stored⟩, live⟩
    · rintro ⟨now, ⟨u, -, stored⟩, live⟩
      rcases books.tokenActive u _ _ _ stored with there | isOver
      · exact ⟨_, there, live, rfl⟩
      · omega

/-- **Seeds and tokens.** While UUIDs never repeat, in every schedule of the
endpoints from empty tables each step is exact: a seed is taken once and within
ten minutes, only the request that took it gets its one token, and a token is
accepted for one hour, with its subject. -/
theorem seeds_and_tokens (lib : Libraries) (endpoints : ℕ → Endpoint) (clock : ℕ)
    (moves : List (Move Input))
    (fresh : (exchange lib endpoints clock).Meets exchangeHost FreshUuids moves) :
    ∀ first t i rest, moves = first ++ .step t i :: rest →
      Exact lib endpoints ((exchange lib endpoints clock).play exchangeHost first) t i := by
  rintro first t i rest rfl
  obtain ⟨fresh, -⟩ := Pool.meets_append.mp fresh
  have sound : Sound lib endpoints ((exchange lib endpoints clock).play exchangeHost first) :=
    Pool.play_invariant (fun _ m sound fresh => sound.move m fresh) (sound_start lib endpoints clock)
      fresh
  exact sound.exact t i

/-! ## A token at the end of its hour -/

/-- Zeros, with one byte to tell UUIDs apart. -/
def sampleBytes (n : UInt8) : Fin 16 → UInt8 := fun i => if i.val = 0 then n else 0

/-- The sample seed, and the sample token. -/
def sampleSeed : String := newUuid (sampleBytes 1)

def sampleToken : String := stripHyphens (newUuid (sampleBytes 2))

/-- The seed with a signature, and what is found in it. -/
def seedText : String :=
  "<SemillaModel><valor>" ++ sampleSeed ++ "</valor>" ++
    "<Signature xmlns=\"http://www.w3.org/2000/09/xmldsig#\"><SignatureValue>x</SignatureValue>" ++
    "<X509Certificate>x</X509Certificate></Signature></SemillaModel>"

def seedDocument : String → Option String := fun expr =>
  ([("//*[local-name()='valor']", sampleSeed), ("//ds:SignatureValue", "x"),
    ("//ds:X509Certificate", "x")] : List (String × String)).lookup expr

/-- That document can be read, and its certificate is in force. -/
def sampleLibraries : Libraries where
  xmlReadMemory content := if content = seedText then some seedDocument else none
  decodeCertificate _ := some ⟨["/CN=peer"], some 0, some 4000000000⟩

theorem read_seedText : sampleLibraries.xmlReadMemory seedText = some seedDocument := by
  simp [sampleLibraries]

def sampleEndpoints : ℕ → Endpoint
  | 0 => .getSemilla
  | 1 => .validarSemilla { body := seedText }
  | _ => .recepcioneCF { authorization := "Bearer " ++ sampleToken }

/-- A seed, ten minutes later a token. -/
def sampleMoves : List (Move Input) :=
  [.step 0 { bytes := sampleBytes 1 }, .step 0 {}, .step 0 {}, .step 0 {},
    .step 1 { elapsed := tenMinutes }, .step 1 {}, .step 1 {}, .step 1 { bytes := sampleBytes 2 },
    .step 1 {}, .step 1 {}]

/-- After one hour the token is still accepted. -/
theorem seeds_and_tokens_sample :
    Exact sampleLibraries sampleEndpoints
      ((exchange sampleLibraries sampleEndpoints 0).play exchangeHost sampleMoves) 2
      { elapsed := oneHour } ∧
    ((exchange sampleLibraries sampleEndpoints 0).play exchangeHost sampleMoves).world.tokens
      sampleToken = some ⟨tenMinutes + oneHour, "/CN=peer"⟩ :=
  ⟨seeds_and_tokens sampleLibraries sampleEndpoints 0 (sampleMoves ++ [.step 2 { elapsed := oneHour }])
    (by decide +kernel) sampleMoves 2 { elapsed := oneHour } [] rfl, by decide +kernel⟩

end EcfDgii.PeerTokens
