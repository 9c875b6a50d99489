import EcfDgii.SubmissionTrace

/-!
The traces of the transport.

Queries, tokens and signers leave an operation's progress as it was; their
specifications hold under any permissions that allow requests outside the
tables.  A transmission is posted only while the operation is ready for it,
and a second time only after a 401.
-/

set_option autoImplicit false

namespace EcfDgii.TransportTrace

open EcfDgii.Documents EcfDgii.DgiiReplies EcfDgii.Programs EcfDgii.Engine EcfDgii.Transport
open EcfDgii.Transmission EcfDgii.Submission EcfDgii.Traces EcfDgii.SubmissionTrace

variable {ext : Externals} {services : Services} {permits : Log → Request → Prop} {log : Log}
  {client : EcfClient}

/-- The rule of a request in the middle of a procedure. -/
theorem ask_bind_follows {α : Type} {post : Log → α → Prop} {exn : Log → String → Prop}
    (r : Request) {k : r.Reply → Procedure α} (allowed : permits log r)
    (rest : ∀ x : r.Reply, (k x).Follows (.logging permits) post exn (log ++ [⟨r, x⟩])) :
    (ask r >>= k).Follows (.logging permits) post exn log :=
  (follows_logging_bind (I := Api) r k).mpr ⟨allowed, rest⟩

/-- The rule of a procedure that is one request. -/
theorem ask_follows (r : Request) {post : Log → r.Reply → Prop} {exn : Log → String → Prop}
    (allowed : permits log r) (rest : ∀ x : r.Reply, post (log ++ [⟨r, x⟩]) x) :
    (ask r).Follows (.logging permits) post exn log :=
  (follows_logging_perform (I := Api) r).mpr ⟨allowed, rest⟩

/-- Requests outside the tables are allowed, the answer to the caller apart. -/
def AllowsOutside (permits : Log → Request → Prop) : Prop :=
  ∀ log r, Outside r → (∀ response, r ≠ .respond response) → permits log r

theorem silent_of_neutral {r : Request} (h : Neutral r) (response : HttpResponse) :
    r ≠ .respond response := by
  rintro rfl
  exact h

/-- The rule of a neutral request: the rest starts from a log that holds the
answer and shows the same progress. -/
theorem neutral_bind_follows {α : Type} {post : Log → α → Prop} {exn : Log → String → Prop}
    (r : Request) (neutral : Neutral r) (allowed : permits log r) {k : r.Reply → Procedure α}
    (rest : ∀ (x : r.Reply) b, Quiet log b → (⟨r, x⟩ : Event Api) ∈ b →
      (k x).Follows (.logging permits) post exn b) :
    (ask r >>= k).Follows (.logging permits) post exn log :=
  ask_bind_follows r allowed fun x => rest x _ (.neutral neutral log x) (by simp)

/-- The same for a request outside the tables. -/
theorem quiet_bind_follows {α : Type} {post : Log → α → Prop} {exn : Log → String → Prop}
    (outside : AllowsOutside permits) (r : Request) (h : Outside r) (neutral : Neutral r)
    {k : r.Reply → Procedure α}
    (rest : ∀ (x : r.Reply) b, Quiet log b → (⟨r, x⟩ : Event Api) ∈ b →
      (k x).Follows (.logging permits) post exn b) :
    (ask r >>= k).Follows (.logging permits) post exn log :=
  neutral_bind_follows r neutral (outside _ _ h (silent_of_neutral neutral)) rest

/-- The rule of `sendWithReactiveAuth`: `send` is called while `R` holds, which a
401 restores and quiet requests keep. -/
theorem sendWithReactiveAuth_follows (outside : AllowsOutside permits)
    {send : String → Procedure HttpReply} {R L : Log → Prop}
    {G : Log → HttpReply → Prop}
    (quiet : ∀ a b, R a → Quiet a b → R b)
    (sends : ∀ a token, R a → (send token).Follows (.logging permits)
      (fun b resp => G b resp ∧ (resp.statusCode = 401 → R b)) (fun _ _ => False) a)
    (ready : ∀ a, R a → L a)
    (got : ∀ b resp e, G b resp → validateDgiiResponse resp = .error e → L b)
    (start : R log) :
    (sendWithReactiveAuth client send).Follows (.logging permits)
      (fun b resp => G b resp ∧ validateDgiiResponse resp = .ok ())
      (fun b _ => L b) log := by
  unfold sendWithReactiveAuth
  have answer : ∀ b resp, G b resp → (do
      Program.raise (validateDgiiResponse resp)
      return resp : Procedure HttpReply).Follows (.logging permits)
        (fun b resp => G b resp ∧ validateDgiiResponse resp = .ok ()) (fun b _ => L b) b := by
    intro b resp h
    rw [Program.follows_raise_bind]
    exact ⟨fun _ valid => ⟨h, valid⟩, fun e invalid => got b resp e h invalid⟩
  refine quiet_bind_follows outside (.getToken client) trivial trivial
    fun (token : Except String String) _ tokened _ => ?_
  have ready₁ := quiet _ _ start tokened
  rw [Program.follows_raise_bind]
  refine ⟨fun token _ => ?_, fun _ _ => ready _ ready₁⟩
  refine ((sends _ token ready₁).mono (fun _ _ h => h) fun _ _ h => h.elim).bind ?_
  rintro b resp ⟨h, again⟩
  split
  · next refused =>
    refine quiet_bind_follows outside (.invalidateToken client) trivial trivial
      fun _ _ invalidated _ => ?_
    have ready₂ := quiet _ _ (again refused) invalidated
    refine quiet_bind_follows outside (.getToken client) trivial trivial
      fun (fresh : Except String String) _ tokened _ => ?_
    have ready₃ := quiet _ _ ready₂ tokened
    rw [Program.follows_raise_bind]
    refine ⟨fun fresh _ => ?_, fun _ _ => ready _ ready₃⟩
    refine ((sends _ fresh ready₃).mono (fun _ _ h => h) fun _ _ h => h.elim).bind ?_
    exact fun c resp h => answer c resp h.1
  · exact answer b resp h

/-- A query is quiet, and its answer is in the log. -/
theorem consultar_follows (outside : AllowsOutside permits) (consulta : Consulta) :
    (consultar client consulta).Follows (.logging permits)
      (fun b resp => Quiet log b ∧ QueriedSince log b consulta resp) (fun b _ => Quiet log b)
      log := by
  refine (sendWithReactiveAuth_follows outside (R := Quiet log) (L := Quiet log)
    (G := fun b resp => Quiet log b ∧ ∃ before client token, log <+: before ∧
      before ++ [(⟨.get client token consulta, resp⟩ : Event Api)] <+: b)
    (fun _ _ h k => h.trans k) ?_ (fun _ h => h) (fun _ _ _ h _ => h.1)
    (Quiet.refl log)).mono ?_ ?_
  · intro a token h
    refine ask_follows (.get client token consulta) (outside _ _ trivial nofun) fun resp => ?_
    have grown := h.trans (.neutral (r := .get client token consulta) trivial a resp)
    exact ⟨⟨grown, a, client, token, h.longer, List.prefix_rfl⟩, fun _ => grown⟩
  · rintro b resp ⟨⟨quiet, asked⟩, valid⟩
    exact ⟨quiet, asked, valid⟩
  · exact fun _ _ h => h

theorem consultarEstado_follows (outside : AllowsOutside permits)
    (rnc eNcf : String) (rncComprador codigo : Option String) :
    (consultarEstado ext client rnc eNcf rncComprador codigo).Follows (.logging permits)
      (fun b status => Quiet log b ∧ ∃ answer, QueriedSince log b
        (.estado rnc eNcf rncComprador codigo) answer ∧
        status = consultaEstado ext.toParsers answer)
      (fun b _ => Quiet log b) log := by
  unfold consultarEstado
  refine (consultar_follows outside _).bind ?_
  rintro b resp ⟨quiet, queried⟩
  exact ⟨quiet, resp, queried, rfl⟩

theorem consultarTrackIds_follows (outside : AllowsOutside permits) (rnc eNcf : String) :
    (consultarTrackIds ext client rnc eNcf).Follows (.logging permits)
      (fun b _ => Quiet log b) (fun b _ => Quiet log b) log := by
  unfold consultarTrackIds
  refine (consultar_follows outside _).bind ?_
  rintro b resp ⟨quiet, -⟩
  exact quiet

theorem consultarResultado_follows (outside : AllowsOutside permits) (trackId : String) :
    (consultarResultado ext client trackId).Follows (.logging permits)
      (fun b r => Quiet log b ∧ ∃ answer, QueriedSince log b (.resultado trackId) answer ∧
        consultaResultado ext.toParsers trackId answer = .ok r)
      (fun b _ => Quiet log b) log := by
  unfold consultarResultado
  refine (consultar_follows outside _).bind ?_
  rintro b resp ⟨quiet, queried⟩
  rw [Program.follows_raise]
  exact ⟨fun r read => ⟨quiet, resp, queried, read⟩, fun _ _ => quiet⟩

/-- An attempted procedure never throws. -/
theorem attempt_follows {α : Type} {p : Procedure α} {Q : Log → α → Prop}
    {E : Log → String → Prop} {R : Log → Except String α → Prop}
    {F : Log → String → Prop} (h : p.Follows (.logging permits) Q E log)
    (ok : ∀ b a, Q b a → R b (.ok a)) (error : ∀ b e, E b e → R b (.error e)) :
    (attempt p).Follows (.logging permits) R F log := by
  unfold attempt
  refine Program.Follows.tryCatch (M := E) (h.bind fun b a hp => ok b a hp) ?_
  exact fun b e he => error b e he

/-- What a transmission leaves in the log: its exchange, as the last one. -/
structure Transmitted (log b : Log) (route : Route) (file : EcfFileName) (resp : HttpReply) :
    Prop where
  kept : Kept log b
  exchange : ∃ connection, Posted b connection route file ∧ Replied b connection resp ∧
    (progress b).posted = some (connection, route)
  reply : (progress b).reply = some resp

theorem Transmitted.verdict {b : Log} {route : Route} {file : EcfFileName} {resp : HttpReply}
    (h : Transmitted log b route file resp) (ext : Externals) :
    lastVerdict ext b = some (verdict ext route resp) := by
  obtain ⟨connection, -, -, posted⟩ := h.exchange
  simp only [lastVerdict, posted, h.reply]

/-- A longer log in which no reply to a transmission could be read. -/
structure Unread (log b : Log) : Prop where
  kept : Kept log b
  reply : (progress log).reply = none → ∀ resp, (progress b).reply = some resp →
    ∃ e, validateDgiiResponse resp = .error e

theorem Unread.refl (log : Log) : Unread log log :=
  ⟨.refl log, fun none _ some => absurd (none.symm.trans some) nofun⟩

theorem Unread.trans {a b : Log} (h : Unread log a) (quiet : Quiet a b) : Unread log b :=
  ⟨h.kept.trans quiet.kept, fun none resp some => h.reply none resp (quiet.same ▸ some)⟩

/-- A transmission, allowed while the operation is ready for it. -/
theorem transmit_follows (outside : AllowsOutside permits) {route : Route} {xml : String}
    {file : EcfFileName} (start : (progress log).sent = false)
    (allowed : ∀ b, Kept log b → (progress b).sent = false →
      ∀ token, permits b (.post client route token xml file)) :
    (sendWithReactiveAuth client (transmit client route xml file)).Follows (.logging permits)
      (fun b resp => Transmitted log b route file resp ∧ validateDgiiResponse resp = .ok ())
      (fun b _ => Unread log b) log := by
  refine sendWithReactiveAuth_follows outside
    (R := fun b => Unread log b ∧ (progress b).sent = false) (L := Unread log)
    (G := fun b resp => Transmitted log b route file resp)
    ?_ ?_ (fun _ h => h.1) ?_ ⟨Unread.refl log, start⟩
  · rintro a b ⟨unread, unsent⟩ quiet
    exact ⟨unread.trans quiet, quiet.same ▸ unsent⟩
  · rintro a token ⟨unread, unsent⟩
    unfold transmit
    refine ask_bind_follows (.post client route token xml file)
      (allowed a unread.kept unsent token) fun (connection : ℕ) => ?_
    refine ask_follows (.await connection) (outside _ _ trivial nofun) fun (resp : HttpReply) => ?_
    have after : progress (a ++ [⟨.post client route token xml file, connection⟩] ++
        [⟨.await connection, resp⟩]) = { progress a with
          sent := decide (resp.statusCode ≠ 401)
          posted := some (connection, route), reply := some resp } := by
      rw [progress_append, progress_append]
      simp [Progress.after]
    have kept : Kept a (a ++ [⟨.post client route token xml file, connection⟩] ++
        [⟨.await connection, resp⟩]) := by
      refine ⟨by simp, ?_, ?_⟩ <;> rw [after]
    refine ⟨⟨unread.kept.trans kept, ⟨connection, ⟨client, token, xml, by simp⟩,
      by simp [Replied], by rw [after]⟩, by rw [after]⟩, fun refused => ⟨⟨unread.kept.trans kept, ?_⟩,
      by rw [after]; simp [refused]⟩⟩
    intro _ resp' replied
    rw [after] at replied
    cases Option.some.inj replied
    cases valid : validateDgiiResponse resp with
    | ok _ => exact absurd refused (statusCode_of_valid valid)
    | error e => exact ⟨e, rfl⟩
  · rintro b resp e transmitted invalid
    refine ⟨transmitted.kept, fun _ resp' replied => ?_⟩
    cases Option.some.inj (transmitted.reply.symm.trans replied)
    exact ⟨e, invalid⟩

end EcfDgii.TransportTrace
