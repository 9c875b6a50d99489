import EcfDgii.TransportTrace

/-!
The trace of `signAndSend`.

Called on the document it has just committed in SequenceAllocated,
`signAndSend` writes it at most three times more: once with the signature's
failure, or once signed and then with the outcome of the transmission, the last
write repeated when it fails.  `transmission_follows` is where DGII's replies
are read: every branch leaves the status fields the outcome names.
-/

set_option autoImplicit false

namespace EcfDgii.TransmissionTrace

open EcfDgii.Documents EcfDgii.DgiiReplies EcfDgii.Tables EcfDgii.Programs EcfDgii.Engine
open EcfDgii.CanonicalXml EcfDgii.Transport EcfDgii.Transmission EcfDgii.Submission
open EcfDgii.Traces EcfDgii.SubmissionTrace EcfDgii.TransportTrace

variable {ext : Externals} {services : Services} {req : SubmitRequest} {log : Log}
  {permits : Log → Request → Prop} {s : Submission} {doc : EcfDocument}

theorem submitAsks_outside : AllowsOutside (SubmitAsks ext services req) :=
  fun _ _ h _ => .outside h

/-! ## The two routes -/

/-- A longer log whose last reply, if one came, says nothing an exception could
have lost. -/
structure Unsaid (ext : Externals) (log b : Log) : Prop where
  kept : Kept log b
  last : (progress log).reply = none → lastVerdict ext b ≠ some .undecided

theorem Unsaid.trans {a b : Log} (quiet : Quiet log a) (h : Unsaid ext a b) : Unsaid ext log b :=
  ⟨quiet.kept.trans h.kept, fun none => h.last (quiet.same ▸ none)⟩

theorem Unread.unsaid {b : Log} (h : Unread log b) : Unsaid ext log b := by
  refine ⟨h.kept, fun none last => ?_⟩
  unfold lastVerdict at last
  split at last
  · next route resp _ replied =>
    obtain ⟨e, invalid⟩ := h.reply none resp replied
    rcases verdict_of_error ext route invalid with meaning | meaning <;>
      exact absurd ((Option.some.inj last).symm.trans meaning) nofun
  · cases last

/-- A reply of `sendEcf`, with the exchange it was read from. -/
theorem sendEcf_follows (outside : AllowsOutside permits) {client : EcfClient} {xml : String}
    {file : EcfFileName} (start : (progress log).sent = false)
    (allowed : ∀ b, Kept log b → (progress b).sent = false →
      ∀ token, permits b (.post client .recepcion token xml file)) :
    (sendEcf ext client xml file).Follows (.logging permits)
      (fun b r => ∃ resp, Transmitted log b .recepcion file resp ∧
        validateDgiiResponse resp = .ok () ∧ ecfRecepcion ext.toParsers resp = .ok r)
      (fun b _ => Unsaid ext log b) log := by
  unfold sendEcf
  refine (Program.follows_raise_bind _ _).mpr
    ⟨fun _ _ => ?_, fun _ _ => Unread.unsaid (.refl log)⟩
  refine ((transmit_follows outside start allowed).mono (fun _ _ h => h)
    fun _ _ h => Unread.unsaid h).bind ?_
  rintro b resp ⟨transmitted, valid⟩
  refine (Program.follows_raise _).mpr ⟨fun r read => ?_, fun _ _ => ⟨transmitted.kept, ?_⟩⟩
  · exact ⟨resp, transmitted, valid, read⟩
  · intro _ last
    exact verdict_recepcion_decided resp (Option.some.inj ((transmitted.verdict ext).symm.trans last))

/-- A reply of `sendRfce`, with the exchange it was read from. -/
theorem sendRfce_follows (outside : AllowsOutside permits) {client : EcfClient} {xml : String}
    {file : EcfFileName} (start : (progress log).sent = false)
    (allowed : ∀ b, Kept log b → (progress b).sent = false →
      ∀ token, permits b (.post client .recepcionFc token xml file)) :
    (sendRfce ext client xml file).Follows (.logging permits)
      (fun b r => ∃ resp, Transmitted log b .recepcionFc file resp ∧
        validateDgiiResponse resp = .ok () ∧ rfceRecepcion ext.toParsers resp = .ok r)
      (fun b _ => Unsaid ext log b) log := by
  unfold sendRfce
  refine (Program.follows_raise_bind _ _).mpr
    ⟨fun _ _ => ?_, fun _ _ => Unread.unsaid (.refl log)⟩
  refine ((transmit_follows outside start allowed).mono (fun _ _ h => h)
    fun _ _ h => Unread.unsaid h).bind ?_
  rintro b resp ⟨transmitted, valid⟩
  refine (Program.follows_raise _).mpr ⟨fun r read => ?_, fun e unread => ⟨transmitted.kept, ?_⟩⟩
  · exact ⟨resp, transmitted, valid, read⟩
  · intro _ last
    have meaning := Option.some.inj ((transmitted.verdict ext).symm.trans last)
    rw [verdict, if_neg (statusCode_of_valid valid), valid] at meaning
    simp [unread] at meaning

/-! ## Outcomes -/

/-- Evidence lasts while nothing else is sent. -/
theorem Outcome.quiet {d d' : EcfDocument} {b : Log} (h : Outcome ext log d d')
    (quiet : Quiet log b) : Outcome ext b d d' := by
  refine ⟨h.only, ?_⟩
  cases h.state with
  | accepted state => exact .accepted state
  | uncertain state => exact .uncertain state
  | signed state sentAt => exact .signed state sentAt
  | rejected state seen carried =>
    exact .rejected state (seen.mono fun _ => quiet.mem) (carried.mono (fun _ => quiet.mem)
      (by simp only [lastVerdict, quiet.same]))
  | undecided state seen last =>
    exact .undecided state (seen.mono fun _ => quiet.mem)
      (by simpa only [lastVerdict, quiet.same] using last)

/-- A transmission was concluded: the outcome has its evidence, and a reply
without a verdict was taken for a rejection. -/
structure Concluded (ext : Externals) (log b : Log) (doc d : EcfDocument) : Prop where
  kept : Kept log b
  outcome : Outcome ext b doc d
  undecided : (progress log).reply = none → lastVerdict ext b = some .undecided →
    d.state = "RejectedByDgii"

/-- What an RFCE reply makes of the document. -/
theorem afterRfce_concluded {b : Log} {resp : HttpReply} {r : RfceRecepcionResponse}
    (doc : EcfDocument) (sentAt : ℕ)
    (transmitted : Transmitted log b .recepcionFc ⟨doc.rncEmisor, doc.eNcf⟩ resp)
    (valid : validateDgiiResponse resp = .ok ())
    (read : rfceRecepcion ext.toParsers resp = .ok r) :
    Concluded ext log b doc (afterRfce sentAt doc r) := by
  obtain ⟨connection, posted, replied, -⟩ := transmitted.exchange
  have meaning := verdict_recepcionFc valid read
  have last := transmitted.verdict ext
  unfold afterRfce
  by_cases accepted : r.codigo = 1 ∨ Accepted r.estado
  · rw [if_pos accepted] at meaning ⊢
    refine ⟨transmitted.kept, ⟨rfl, .accepted rfl⟩, fun _ undecided => ?_⟩
    rw [last, meaning] at undecided
    cases undecided
  · rw [if_neg accepted] at meaning ⊢
    refine ⟨transmitted.kept, ⟨rfl, ?_⟩, fun _ _ => rfl⟩
    by_cases rejects : Rejected r.estado
    · rw [if_pos rejects] at meaning
      exact .rejected rfl (.reception posted replied rfl meaning) (.inl (last.trans (by rw [meaning])))
    · rw [if_neg rejects] at meaning
      exact .undecided rfl ⟨connection, _, resp, posted, replied, rfl, meaning⟩
        (last.trans (by rw [meaning]))

/-- A reception without a trackId is a rejection. -/
theorem notReceived_outcome {b : Log} {resp : HttpReply} {r : EcfRecepcionResponse}
    (transmitted : Transmitted log b .recepcion ⟨doc.rncEmisor, doc.eNcf⟩ resp)
    (valid : validateDgiiResponse resp = .ok ())
    (read : ecfRecepcion ext.toParsers resp = .ok r) (missing : r.trackId = "") :
    Outcome ext b doc (notReceived doc r) := by
  obtain ⟨connection, posted, replied, -⟩ := transmitted.exchange
  have meaning := verdict_recepcion valid read
  rw [if_neg (not_not.mpr missing)] at meaning
  simp only [notReceived]
  split
  · exact ⟨rfl, .rejected rfl (.reception posted replied rfl meaning)
      (.inl ((transmitted.verdict ext).trans (by rw [meaning])))⟩
  · exact ⟨rfl, .uncertain rfl⟩

/-- A reception with a trackId is a transmission without a verdict. -/
theorem received_outcome {b : Log} (sentAt : ℕ) (trackId : String) :
    Outcome ext b doc (received sentAt doc trackId) :=
  ⟨rfl, .signed rfl rfl⟩

/-- The query of a fresh trackId gives the verdict or leaves it open. -/
theorem afterResultado_outcome {a b : Log} {resp answer : HttpReply} {r : EcfRecepcionResponse}
    {resultado : ConsultaResultadoResponse} (sentAt : ℕ) (quiet : Quiet a b)
    (transmitted : Transmitted log a .recepcion ⟨doc.rncEmisor, doc.eNcf⟩ resp)
    (valid : validateDgiiResponse resp = .ok ())
    (read : ecfRecepcion ext.toParsers resp = .ok r) (tracked : r.trackId ≠ "")
    (queried : Queried b (.resultado r.trackId) answer)
    (answered : consultaResultado ext.toParsers r.trackId answer = .ok resultado) :
    Outcome ext b doc ((afterResultado (received sentAt doc r.trackId) resultado).getD
      (received sentAt doc r.trackId)) := by
  obtain ⟨connection, posted, replied, -⟩ := transmitted.exchange
  have meaning := verdict_recepcion valid read
  rw [if_pos tracked] at meaning
  have last : lastVerdict ext b = some (.received r.trackId) := by
    rw [← meaning, ← transmitted.verdict ext]
    simp only [lastVerdict, quiet.same]
  unfold afterResultado
  split
  · exact received_outcome _ _
  · split
    · exact ⟨rfl, .accepted rfl⟩
    · split
      · next rejects =>
        exact ⟨rfl, .rejected rfl (.resultado (posted.mono fun _ => quiet.mem)
          (quiet.mem replied) rfl meaning queried answered rejects)
          (.inr ⟨_, answer, resultado, last, queried, answered, rejects⟩)⟩
      · exact received_outcome _ _

/-- Nothing is undecided on the reception route. -/
theorem concluded_of_outcome {a b : Log} {resp : HttpReply} {d : EcfDocument}
    {file : EcfFileName} (transmitted : Transmitted log a .recepcion file resp)
    (quiet : Quiet a b) (outcome : Outcome ext b doc d) : Concluded ext log b doc d := by
  refine ⟨transmitted.kept.trans quiet.kept, outcome, fun _ undecided => ?_⟩
  have last : lastVerdict ext b = lastVerdict ext a := by simp only [lastVerdict, quiet.same]
  rw [last, transmitted.verdict ext] at undecided
  exact absurd (Option.some.inj undecided) (verdict_recepcion_decided resp)

/-! ## The transmission -/

/-- The transmissions of a document are allowed while none is out. -/
def AllowsTransmission (ext : Externals) (permits : Log → Request → Prop) (log : Log)
    (doc : EcfDocument) : Prop :=
  ∀ b, Kept log b → (progress b).sent = false → ∀ client route token xml,
    Payload ext b doc route xml →
      permits b (.post client route token xml ⟨doc.rncEmisor, doc.eNcf⟩)

theorem AllowsTransmission.quiet {b : Log} (h : AllowsTransmission ext permits log doc)
    (quiet : Quiet log b) : AllowsTransmission ext permits b doc :=
  fun c kept => h c (quiet.kept.trans kept)

theorem sendAsRfce_follows (outside : AllowsOutside permits)
    (allowed : AllowsTransmission ext permits log doc) (unsent : (progress log).sent = false)
    (small : isRfce doc = true) :
    (sendAsRfce ext services s doc).Follows (.logging permits)
      (fun b d => Concluded ext log b doc d) (fun b _ => Unsaid ext log b) log := by
  unfold sendAsRfce
  refine quiet_bind_follows outside .now trivial trivial fun (time : ℕ) a timed _ => ?_
  refine quiet_bind_follows outside (.signXml ..) trivial trivial
    fun (out : Except String String) b answered made => ?_
  have quiet := timed.trans answered
  refine (Program.follows_raise_bind _ _).mpr
    ⟨fun xml ok => ?_, fun _ _ => .trans quiet (Unread.unsaid (.refl b))⟩
  subst ok
  refine ((sendRfce_follows outside (quiet.same ▸ unsent) fun c kept unsent token =>
    allowed.quiet quiet c kept unsent _ _ token _ (.rfce small (kept.mem made))).mono
      (fun _ _ h => h) fun _ _ unsaid => .trans quiet unsaid).bind ?_
  rintro c r ⟨resp, transmitted, valid, read⟩
  refine quiet_bind_follows outside .now trivial trivial
    fun (sentAt : ℕ) d last _ => ?_
  have concluded := afterRfce_concluded doc sentAt transmitted valid read
  exact ⟨(quiet.kept.trans concluded.kept).trans last.kept, Outcome.quiet concluded.outcome last,
    fun none undecided => concluded.undecided (quiet.same ▸ none)
      (by simpa only [lastVerdict, last.same] using undecided)⟩

theorem sendAsEcf_follows (outside : AllowsOutside permits)
    (allowed : AllowsTransmission ext permits log doc) (unsent : (progress log).sent = false)
    {xml : String} (stored : doc.signedXmlContent = some xml) :
    (sendAsEcf ext s doc).Follows (.logging permits)
      (fun b d => Concluded ext log b doc d) (fun b _ => Unsaid ext log b) log := by
  unfold sendAsEcf
  rw [stored, Option.getD_some]
  refine (sendEcf_follows outside unsent fun b kept unsent token =>
    allowed b kept unsent _ _ token _ (.ecf stored)).bind ?_
  rintro b r ⟨resp, transmitted, valid, read⟩
  split
  · next tracked =>
    refine quiet_bind_follows outside .now trivial trivial
      fun (sentAt : ℕ) _ timed _ => ?_
    refine (attempt_follows (F := fun _ _ => False)
      (R := fun c x => Quiet b c ∧ ∀ resultado, x = .ok resultado →
        ∃ answer, Queried c (.resultado r.trackId) answer ∧
          consultaResultado ext.toParsers r.trackId answer = .ok resultado)
      (consultarResultado_follows outside r.trackId) ?_ ?_).mono
        (fun _ _ h => h) (fun _ _ h => h.elim) |>.bind ?_
    · rintro c resultado ⟨quiet, answered⟩
      obtain ⟨answer, queried, read⟩ := answered
      exact ⟨timed.trans quiet, fun _ same =>
        ⟨answer, queried.queried, Except.ok.inj same ▸ read⟩⟩
    · exact fun c e quiet => ⟨timed.trans quiet, fun _ same => nomatch same⟩
    · rintro c x ⟨quiet, answered⟩
      cases x with
      | error e => exact concluded_of_outcome transmitted quiet (received_outcome _ _)
      | ok resultado =>
        obtain ⟨answer, queried, readAnswer⟩ := answered resultado rfl
        exact concluded_of_outcome transmitted quiet (afterResultado_outcome sentAt quiet
          transmitted valid read tracked queried readAnswer)
  · next missing =>
    exact concluded_of_outcome transmitted (.refl b)
      (notReceived_outcome transmitted valid read (not_not.mp missing))

/-- **The transmission.** It never throws, and its outcome has evidence in the
log. -/
theorem transmission_follows (outside : AllowsOutside permits)
    (allowed : AllowsTransmission ext permits log doc) (unsent : (progress log).sent = false)
    {xml : String} (stored : doc.signedXmlContent = some xml) :
    (transmission ext services s doc).Follows (.logging permits)
      (fun b d => Concluded ext log b doc d) (fun _ _ => False) log := by
  refine Program.Follows.tryCatch (M := fun b _ => Unsaid ext log b) ?_ ?_
  · split
    · next small => exact sendAsRfce_follows outside allowed unsent small
    · exact sendAsEcf_follows outside allowed unsent stored
  · exact fun b e unsaid => ⟨unsaid.kept, ⟨rfl, .uncertain rfl⟩,
      fun none undecided => absurd undecided (unsaid.last none)⟩

/-! ## Commits -/

/-- A longer log whose last commit is `doc`. -/
structure Committed (log b : Log) (doc : EcfDocument) : Prop where
  longer : log <+: b
  found : (progress b).found = (progress log).found
  written : (progress b).written = some doc
  sent : (progress b).sent = (progress log).sent

theorem Committed.mem {b : Log} (h : Committed log b doc) {e : Event Api} (m : e ∈ log) : e ∈ b :=
  h.longer.subset m

theorem saveChanges_follows {write : Write}
    (allowed : permits log (.saveChanges [write])) :
    (do Program.raise (← saveChanges [write]) : Procedure Unit).Follows (.logging permits)
      (fun b _ => Committed log b write.doc) (fun b _ => Quiet log b) log := by
  refine ask_bind_follows (.saveChanges [write]) allowed fun (answer : Except String Unit) => ?_
  refine (Program.follows_raise _).mpr ⟨?_, ?_⟩
  · rintro ⟨⟩ rfl
    refine ⟨List.prefix_append _ _, ?_, ?_, ?_⟩ <;> rw [progress_append] <;> rfl
  · rintro e rfl
    exact ⟨List.prefix_append _ _, by rw [progress_append]; rfl⟩

/-- An update commits the document, or throws and changes nothing. -/
theorem update_follows (outside : AllowsOutside permits)
    (allowed : ∀ b (time : ℕ), Quiet log b → (⟨.now, time⟩ : Event Api) ∈ b →
      permits b (.saveChanges [.update doc time])) :
    (update doc).Follows (.logging permits) (fun b _ => Committed log b doc)
      (fun b _ => Quiet log b) log := by
  unfold update
  refine quiet_bind_follows outside .now trivial trivial fun (time : ℕ) a timed staged => ?_
  refine (saveChanges_follows (allowed a time timed staged)).mono ?_ ?_
  · exact fun b _ h => ⟨timed.longer.trans h.longer, h.found.trans (congrArg _ timed.same),
      h.written, h.sent.trans (congrArg _ timed.same)⟩
  · exact fun b _ quiet => timed.trans quiet

/-- The outcome is saved, in a second scope if need be, or lost. -/
theorem saveOutcome_follows (outside : AllowsOutside permits)
    (allowed : ∀ b (time : ℕ), Quiet log b → (⟨.now, time⟩ : Event Api) ∈ b →
      permits b (.saveChanges [.update doc time])) :
    (saveOutcome doc).Follows (.logging permits) (fun _ _ => True) (fun _ _ => False) log := by
  refine Program.Follows.tryCatch (M := fun b _ => Quiet log b)
    ((update_follows outside allowed).mono (fun _ _ _ => trivial) fun _ _ h => h) ?_
  intro a _ quiet
  refine Program.Follows.tryCatch (M := fun _ _ => True) ?_ ?_
  · exact (update_follows outside fun b time h staged =>
      allowed b time (quiet.trans h) staged).mono
      (fun _ _ _ => trivial) fun _ _ _ => trivial
  · exact fun _ _ _ => trivial

/-! ## `signAndSend` -/

/-- A document just committed with its content, nothing sent. -/
structure Fresh (log : Log) (doc : EcfDocument) : Prop where
  written : (progress log).written = some doc
  state : doc.state = "SequenceAllocated"
  unsent : (progress log).sent = false

theorem Fresh.quiet (h : Fresh log doc) {b : Log} (quiet : Quiet log b) : Fresh b doc :=
  ⟨quiet.same ▸ h.written, h.state, quiet.same ▸ h.unsent⟩

variable {target : SubmissionTarget}

theorem save_allowed (resolved : resolveTarget services req = .ok target)
    {write : Write} (staged : (⟨.now, write.time⟩ : Event Api) ∈ log)
    (h : SubmitWrite ext target log write) :
    SubmitAsks ext services req log (.saveChanges [write]) :=
  .save resolved staged h

/-- The content signature: made, or failed with its reason. -/
theorem signContent_follows (outside : AllowsOutside permits) :
    (attempt (signContent ext s doc)).Follows (.logging permits)
      (fun b x => Quiet log b ∧ match x with
        | .ok (signedXml, _) => ∃ signer, Signs b signer doc.xmlContent doc.rncEmisor (.ok signedXml)
        | .error _ => SignatureFailed ext b doc)
      (fun _ _ => False) log := by
  refine attempt_follows (Q := fun b x => Quiet log b ∧
      ∃ signer, Signs b signer doc.xmlContent doc.rncEmisor (.ok x.1))
    (E := fun b _ => Quiet log b ∧ SignatureFailed ext b doc) ?_ (fun _ _ h => h) fun _ _ h => h
  unfold signContent
  refine quiet_bind_follows outside (.signXml ..) trivial trivial
    fun (out : Except String String) b quiet made => ?_
  refine (Program.follows_raise_bind _ _).mpr ⟨fun xml ok => ?_, fun e failed => ?_⟩
  · subst ok
    refine (Program.follows_raise_bind _ _).mpr ⟨fun c _ => ⟨quiet, s.signer, made⟩, ?_⟩
    intro e failed
    exact ⟨quiet, s.signer, _, made, fun x same => ⟨e, Except.ok.inj same ▸ failed⟩⟩
  · subst failed
    exact ⟨quiet, s.signer, _, made, fun _ same => nomatch same⟩

theorem sendSigned_follows (resolved : resolveTarget services req = .ok target)
    (fresh : Fresh log doc) {signer : Signer} {signedXml codigo : String}
    (made : Signs log signer doc.xmlContent doc.rncEmisor (.ok signedXml)) :
    (sendSigned ext services s (signed doc signedXml codigo)).Follows
      (.logging (SubmitAsks ext services req)) (fun _ _ => True) (fun _ _ => True) log := by
  unfold sendSigned
  split
  · refine (update_follows submitAsks_outside fun b time quiet staged => ?_).mono
      (fun _ _ h => h) (fun _ _ _ => trivial) |>.bind fun _ _ _ => trivial
    exact save_allowed resolved staged (.unsigned (fresh.quiet quiet).written fresh.state)
  · refine (update_follows submitAsks_outside fun b time quiet staged => ?_).mono
      (fun _ _ h => h) (fun _ _ _ => trivial) |>.bind ?_
    · exact save_allowed resolved staged (.awaiting (fresh.quiet quiet).written fresh.state
        ⟨signer, quiet.mem made⟩)
    · rintro b - committed
      have allowed : AllowsTransmission ext (SubmitAsks ext services req) b
          (signed doc signedXml codigo) := fun c kept unsent _ _ _ _ payload =>
        .transmit (kept.written.trans committed.written) rfl unsent payload
      refine ((transmission_follows submitAsks_outside allowed
        (committed.sent.trans fresh.unsent) rfl).mono (fun _ _ h => h) fun _ _ h => h.elim).bind ?_
      rintro c d concluded
      refine ((saveOutcome_follows submitAsks_outside fun e time quiet staged => ?_).mono
        (fun _ _ h => h) fun _ _ h => h.elim).bind fun _ _ _ => trivial
      have written : (progress e).written = some (signed doc signedXml codigo) := by
        rw [quiet.same, concluded.kept.written, committed.written]
      exact save_allowed resolved staged (.outcome written rfl (Outcome.quiet concluded.outcome quiet))

/-- **`signAndSend`.** On a freshly committed document every write has its
evidence, and one transmission at a time goes out. -/
theorem signAndSend_follows (resolved : resolveTarget services req = .ok target)
    (fresh : Fresh log doc) :
    (signAndSend ext services s doc).Follows (.logging (SubmitAsks ext services req))
      (fun _ _ => True) (fun _ _ => True) log := by
  unfold signAndSend
  refine ((signContent_follows submitAsks_outside).mono (fun _ _ h => h)
    fun _ _ h => h.elim).bind ?_
  rintro a x ⟨quiet, result⟩
  have fresh := fresh.quiet quiet
  cases x with
  | error what =>
    refine (update_follows submitAsks_outside fun b time quiet staged => ?_).mono
      (fun _ _ h => h) (fun _ _ _ => trivial) |>.bind fun _ _ _ => trivial
    obtain ⟨signer, out, signs, failed⟩ := result
    exact save_allowed resolved staged (.signingFailed (fresh.quiet quiet).written fresh.state
      ⟨signer, out, quiet.mem signs, failed⟩)
  | ok x =>
    obtain ⟨signer, made⟩ := result
    dsimp only
    split
    · refine (update_follows submitAsks_outside fun b time quiet staged => ?_).mono
        (fun _ _ h => h) (fun _ _ _ => trivial) |>.bind fun _ _ _ => trivial
      exact save_allowed resolved staged (.schemaInvalid (fresh.quiet quiet).written fresh.state
        ⟨signer, quiet.mem made⟩)
    · exact sendSigned_follows resolved fresh made

end EcfDgii.TransmissionTrace
