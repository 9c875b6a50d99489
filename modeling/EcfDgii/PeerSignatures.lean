import EcfDgii.PeerTokens

/-!
What a peer proves when the exchange accepts it.

A token, an acknowledgement or an approval should take a signature that verifies
under the certificate that comes with it (README, section 9).  The controller
only asks that a signature value be present, or not even that.  `Signed` states
what should hold of a run; `Genuine` is the condition under which it does, over
the checks the controller makes: what passes them must happen to be signed.
-/

set_option autoImplicit false

namespace EcfDgii.PeerSignatures

open EcfDgii.Text EcfDgii.Timestamps EcfDgii.Programs EcfDgii.Execution
open EcfDgii.EmisorReceptorController EcfDgii.PeerTokens

/-! ## The property -/

/-- A parsed document, by the values of its XPath expressions. -/
abbrev Document := String → Option String

abbrev sigOf (doc : Document) : String := xpathValue doc "//ds:SignatureValue"

abbrev certOf (doc : Document) : String := xpathValue doc "//ds:X509Certificate"

abbrev valorOf (doc : Document) : String := xpathValue doc "//*[local-name()='valor']"

/-- The base64 that `validateX509Certificate` decodes. -/
abbrev cleaned (certBase64 : String) : String :=
  String.ofList (certBase64.toList.filter fun c => !isspace c)

/-- Whether a signature value verifies under the key of a certificate, over a text. -/
abbrev Verifier := Certificate → String → String → Prop

/-- The clock at each question of a run. -/
def clockAt (w : World) (inputs : ℕ → Input) : ℕ → ℕ
  | 0 => w.clock + (inputs 0).elapsed
  | n + 1 => clockAt w inputs n + (inputs (n + 1)).elapsed

/-- One request that runs alone. -/
def runAlone (lib : Libraries) (w : World) (inputs : ℕ → Input) (op : Endpoint) :
    Run Exchange Unit World :=
  exchangeHost.run (fun n => some (inputs n)) w [] (handler lib op)

/-- An answer of success. -/
def Succeeds : Event Exchange → Prop
  | ⟨.respond response, _⟩ => response.statusCode = 200
  | _ => False

/-- A request has been answered with success. -/
def Accepted (log : List (Event Exchange)) : Prop := ∃ e ∈ log, Succeeds e

/-- A posted text carries a certificate, and a signature value that verifies under it. -/
def DocumentSigned (lib : Libraries) (verifies : Verifier) (req : PeerRequest) : Prop :=
  ∃ doc cert, lib.xmlReadMemory (extractXmlContent req) = some doc ∧
    lib.decodeCertificate (cleaned (certOf doc)) = some cert ∧
    verifies cert (sigOf doc) (extractXmlContent req)

/-- A posted text carries an unexpired seed of this server, a certificate of a
subject within its validity, and a signature value that verifies under it. -/
structure SeedSigned (lib : Libraries) (verifies : Verifier) (p : Peers) (inputs : ℕ → Input)
    (req : PeerRequest) (subject : String) (doc : Document) (cert : Certificate) : Prop where
  parsed : lib.xmlReadMemory (extractXmlContent req) = some doc
  seed : ∃ now, SeedIssued p.history (valorOf doc) now ∧
    clockAt p.world inputs 0 ≤ now + tenMinutes
  certificate : lib.decodeCertificate (cleaned (certOf doc)) = some cert
  entered : ∃ time, cert.notBefore = some time ∧
    time ≤ ((clockAt p.world inputs 1 / second : ℕ) : ℤ)
  lasting : ∃ time, cert.notAfter = some time ∧
    ((clockAt p.world inputs 2 / second : ℕ) : ℤ) ≤ time
  named : subject = String.join cert.subject
  signed : verifies cert (sigOf doc) (extractXmlContent req)

/-- What a request is given, its sender has signed for. -/
def Signed (lib : Libraries) (verifies : Verifier) (p : Peers) (inputs : ℕ → Input)
    (op : Endpoint) : Prop :=
  match op with
  | .getSemilla => True
  | .validarSemilla req => ∀ token expiresAt subject,
      tokenStored token expiresAt subject ∈ (runAlone lib p.world inputs op).log →
        ∃ doc cert, SeedSigned lib verifies p inputs req subject doc cert
  | .recepcioneCF req | .aprobacionComercial req =>
      Accepted (runAlone lib p.world inputs op).log → DocumentSigned lib verifies req

/-! ## The checks of the controller -/

/-- The checks of `validateX509Certificate`, with the clock at both comparisons. -/
structure CertificatePasses (lib : Libraries) (first later : ℕ) (certBase64 : String)
    (cert : Certificate) : Prop where
  someBase64 : cleaned certBase64 ≠ ""
  decoded : lib.decodeCertificate (cleaned certBase64) = some cert
  entered : cmpCurrentTime first cert.notBefore ≤ 0
  lasting : 0 ≤ cmpCurrentTime later cert.notAfter

/-- The checks of `validarSemilla`. -/
structure SeedPasses (lib : Libraries) (w : World) (inputs : ℕ → Input) (req : PeerRequest)
    (doc : Document) (cert : Certificate) : Prop where
  posted : extractXmlContent req ≠ ""
  parsed : lib.xmlReadMemory (extractXmlContent req) = some doc
  carried : ¬ (sigOf doc = "" ∨ certOf doc = "" ∨ valorOf doc = "")
  live : ∃ expiresAt, w.seeds (valorOf doc) = some expiresAt ∧ clockAt w inputs 0 ≤ expiresAt
  certificate : CertificatePasses lib (clockAt w inputs 1) (clockAt w inputs 2) (certOf doc) cert

/-- The token of a request is active. -/
def TokenPasses (w : World) (inputs : ℕ → Input) (req : PeerRequest) : Prop :=
  bearerToken req ≠ "" ∧ ∃ active, w.tokens (bearerToken req) = some active ∧
    clockAt w inputs 0 ≤ active.expiresAt

abbrev emisorOf (doc : Document) : String := xpathValue doc "//*[local-name()='RNCEmisor']"

abbrev compradorOf (doc : Document) : String := xpathValue doc "//*[local-name()='RNCComprador']"

abbrev encfOf (doc : Document) : String := xpathValue doc "//*[local-name()='eNCF']"

abbrev estadoOf (doc : Document) : String :=
  if xpathValue doc "//*[local-name()='Estado']" = "" then
    xpathValue doc "//*[local-name()='EstadoAprobacion']"
  else xpathValue doc "//*[local-name()='Estado']"

/-- The fiscal values of a document have their form. -/
abbrev FieldsPass (doc : Document) : Prop :=
  (!isValidRncOrCedula (emisorOf doc) || !isValidRncOrCedula (compradorOf doc) ||
    !isValidEncf (encfOf doc)) = false

/-- The checks of `recepcioneCF` on a document. -/
structure Receivable (inputs : ℕ → Input) (doc : Document) : Prop where
  carried : ¬ (emisorOf doc = "" ∨ encfOf doc = "" ∨ compradorOf doc = "")
  fields : FieldsPass doc
  recipient : registered (inputs 1).signer = true
  answered : ∃ signedArecf, (inputs 3).signed = .ok signedArecf

/-- The checks of `aprobacionComercial` on a document. -/
structure Approvable (inputs : ℕ → Input) (doc : Document) : Prop where
  carried : ¬ (emisorOf doc = "" ∨ compradorOf doc = "" ∨ encfOf doc = "" ∨ estadoOf doc = "")
  value : sigOf doc ≠ ""
  fields : FieldsPass doc
  recipient : registered (inputs 1).signer = true

/-- What passes the checks is signed, its certificate readable and its subject
short enough for the buffer. -/
def Genuine (lib : Libraries) (verifies : Verifier) (w : World) (inputs : ℕ → Input) :
    Endpoint → Prop
  | .getSemilla => True
  | .validarSemilla req => ∀ doc cert, SeedPasses lib w inputs req doc cert →
      (cert.notBefore ≠ none ∧ cert.notAfter ≠ none) ∧ (cert.subject.map String.length).sum ≤ 511 ∧
        verifies cert (sigOf doc) (extractXmlContent req)
  | .recepcioneCF req => TokenPasses w inputs req → extractXmlContent req ≠ "" →
      ∀ doc, lib.xmlReadMemory (extractXmlContent req) = some doc → Receivable inputs doc →
        DocumentSigned lib verifies req
  | .aprobacionComercial req => TokenPasses w inputs req → extractXmlContent req ≠ "" →
      ∀ doc, lib.xmlReadMemory (extractXmlContent req) = some doc → Approvable inputs doc →
        DocumentSigned lib verifies req

/-! ## Subjects -/

theorem oneline_length (room : ℕ) (entries : List String) : (oneline room entries).length ≤ room := by
  induction entries generalizing room with
  | nil => simp [oneline]
  | cons entry rest ih =>
    rw [oneline]
    split
    · have tail := ih (room - entry.length)
      rw [String.length_append]
      omega
    · simp

/-- A subject is whole when it has room in the buffer. -/
theorem oneline_eq_iff (room : ℕ) (entries : List String) :
    oneline room entries = String.join entries ↔ (entries.map String.length).sum ≤ room := by
  constructor
  · intro whole
    rw [← String.length_join, ← whole]
    exact oneline_length room entries
  · intro fits
    induction entries generalizing room with
    | nil => simp [oneline]
    | cons entry rest ih =>
      simp only [List.map_cons, List.sum_cons] at fits
      rw [oneline, if_pos (by omega), ih _ (by omega), String.join_cons]

/-! ## What passes the checks -/

section
variable {lib : Libraries} {w : World} {inputs : ℕ → Input} {req : PeerRequest}
  {log : List (Event Exchange)}

/-- The program whose last step is an answer. -/
theorem run_respond (w : World) (inputs : ℕ → Input) (log : List (Event Exchange))
    (response : Engine.HttpResponse) :
    (exchangeHost.run (fun n => some (inputs n)) w log (ask (.respond response))).log =
      log ++ [⟨.respond response, ()⟩] := rfl

theorem run_ask {α : Type} (w : World) (inputs : ℕ → Input) (log : List (Event Exchange))
    (r : PeerQuestion) (k : Exchange.Reply r → Handler α) :
    exchangeHost.run (fun n => some (inputs n)) w log (ask r >>= k) =
      exchangeHost.run (fun n => some (inputs (n + 1))) (exchangeHost.answer (inputs 0) w r).2
        (log ++ [⟨r, (exchangeHost.answer (inputs 0) w r).1⟩])
        (k (exchangeHost.answer (inputs 0) w r).1) := rfl

/-- A seed is taken when it is in the table and its time is not over. -/
theorem seed_taken_iff {valor : String} :
    (exchangeHost.answer (inputs 0) w (.consumeSeed valor)).1 = true ↔
      ∃ expiresAt, w.seeds valor = some expiresAt ∧ clockAt w inputs 0 ≤ expiresAt := by
  change (pruneExpiredSeeds (clockAt w inputs 0) w.seeds valor).isSome = true ↔ _
  cases there : w.seeds valor with
  | none => simp [pruneExpiredSeeds, there]
  | some expiresAt => simp [pruneExpiredSeeds, there]

/-- A certificate that passes gives its subject. -/
theorem run_validate_accepts {α : Type} {certBase64 : String} {cert : Certificate}
    (passes : CertificatePasses lib (clockAt w inputs 0) (clockAt w inputs 1) certBase64 cert)
    (k : Except String String → Handler α) :
    exchangeHost.run (fun n => some (inputs n)) w log (validateX509Certificate lib certBase64 >>= k) =
      exchangeHost.run (fun n => some (inputs (n + 2))) { w with clock := clockAt w inputs 1 }
        (log ++ [⟨.cmpCurrentTime cert.notBefore, cmpCurrentTime (clockAt w inputs 0) cert.notBefore⟩] ++
          [⟨.cmpCurrentTime cert.notAfter, cmpCurrentTime (clockAt w inputs 1) cert.notAfter⟩])
        (k (.ok (oneline 511 cert.subject))) := by
  unfold validateX509Certificate
  dsimp only
  rw [if_neg passes.someBase64, passes.decoded]
  dsimp only
  rw [Program.bind_assoc, run_ask, Program.bind_assoc, run_ask]
  split
  · next early => exact absurd passes.entered (not_le.mpr early)
  split
  · next late => exact absurd passes.lasting (not_le.mpr late)
  rfl

/-- Any other gives an error, after no more than two comparisons. -/
theorem run_validate_refuses {α : Type} {certBase64 : String}
    (fails : ∀ cert,
      ¬ CertificatePasses lib (clockAt w inputs 0) (clockAt w inputs 1) certBase64 cert)
    (k : Except String String → Handler α) :
    ∃ what w' count compared,
      exchangeHost.run (fun n => some (inputs n)) w log
          (validateX509Certificate lib certBase64 >>= k) =
        exchangeHost.run (fun n => some (inputs (n + count))) w' (log ++ compared)
          (k (.error what)) ∧
      ∀ e ∈ compared, ∃ time x, e = ⟨.cmpCurrentTime time, x⟩ := by
  unfold validateX509Certificate
  dsimp only
  by_cases someBase64 : cleaned certBase64 = ""
  · rw [if_pos someBase64]
    exact ⟨_, w, 0, [], by rw [List.append_nil]; rfl, nofun⟩
  rw [if_neg someBase64]
  cases decoded : lib.decodeCertificate (cleaned certBase64) with
  | none => exact ⟨_, w, 0, [], by rw [List.append_nil]; rfl, nofun⟩
  | some cert =>
    dsimp only
    rw [Program.bind_assoc, run_ask, Program.bind_assoc, run_ask]
    have compared : ∀ {first later} {e : Event Exchange},
        e ∈ [⟨.cmpCurrentTime cert.notBefore, first⟩] ++ [⟨.cmpCurrentTime cert.notAfter, later⟩] →
          ∃ time x, e = ⟨.cmpCurrentTime time, x⟩ := by
      intro first later e member
      rcases List.mem_append.mp member with here | here
      · exact ⟨_, _, List.mem_singleton.mp here⟩
      · exact ⟨_, _, List.mem_singleton.mp here⟩
    split
    · exact ⟨_, _, 2, _, by rw [List.append_assoc]; rfl, fun e => compared⟩
    next entered =>
    split
    · exact ⟨_, _, 2, _, by rw [List.append_assoc]; rfl, fun e => compared⟩
    next lasting =>
    exact absurd ⟨someBase64, decoded, not_lt.mp entered, not_lt.mp lasting⟩ (fails cert)

/-- Nothing issues a token but the request to. -/
theorem not_issued {token subject : String} {expiresAt : ℕ} {r : PeerQuestion} {x : Exchange.Reply r}
    (other : r ≠ .issueToken token expiresAt subject) :
    tokenStored token expiresAt subject ≠ ⟨r, x⟩ := fun eq => other (Event.mk.inj eq).1.symm

/-- `validarSemilla` issues one token, to what passes its checks. -/
theorem token_issued_iff {token subject : String} {expiresAt : ℕ} :
    tokenStored token expiresAt subject ∈ (runAlone lib w inputs (.validarSemilla req)).log ↔
      ∃ doc cert, SeedPasses lib w inputs req doc cert ∧
        token = stripHyphens (newUuid (inputs 3).bytes) ∧
        expiresAt = clockAt w inputs 4 + oneHour ∧ subject = oneline 511 cert.subject := by
  unfold runAlone handler
  dsimp only
  unfold validarSemilla
  by_cases posted : extractXmlContent req = ""
  · rw [if_pos posted, run_respond]
    refine iff_of_false (by simp [tokenStored]) ?_
    rintro ⟨doc, cert, passes, -⟩
    exact passes.posted posted
  rw [if_neg posted]
  cases parsed : lib.xmlReadMemory (extractXmlContent req) with
  | none =>
    dsimp only
    rw [run_respond]
    refine iff_of_false (by simp [tokenStored]) ?_
    rintro ⟨doc, cert, passes, -⟩
    cases parsed.symm.trans passes.parsed
  | some doc =>
    have same : ∀ {other}, lib.xmlReadMemory (extractXmlContent req) = some other → other = doc :=
      fun there => Option.some.inj (there.symm.trans parsed)
    dsimp only
    by_cases carried : sigOf doc = "" ∨ certOf doc = "" ∨ valorOf doc = ""
    · rw [if_pos carried, run_respond]
      refine iff_of_false (by simp [tokenStored]) ?_
      rintro ⟨other, cert, passes, -⟩
      obtain rfl := same passes.parsed
      exact passes.carried carried
    rw [if_neg carried, run_ask]
    by_cases live : ∃ expiresAt,
        w.seeds (valorOf doc) = some expiresAt ∧ clockAt w inputs 0 ≤ expiresAt
    · rw [if_pos (seed_taken_iff.mpr live)]
      by_cases certificate : ∃ cert,
          CertificatePasses lib (clockAt w inputs 1) (clockAt w inputs 2) (certOf doc) cert
      · obtain ⟨cert, certificate⟩ := certificate
        rw [run_validate_accepts certificate]
        dsimp only
        rw [run_ask, run_ask, run_ask, run_respond]
        constructor
        · intro stored
          simp only [List.mem_append, List.mem_singleton, List.not_mem_nil, false_or] at stored
          rcases stored with (((((eq | eq) | eq) | eq) | eq) | eq) | eq
          · exact absurd eq (not_issued (by rintro ⟨⟩))
          · exact absurd eq (not_issued (by rintro ⟨⟩))
          · exact absurd eq (not_issued (by rintro ⟨⟩))
          · exact absurd eq (not_issued (by rintro ⟨⟩))
          · exact absurd eq (not_issued (by rintro ⟨⟩))
          · have arguments := (Event.mk.inj eq).1
            simp only [PeerQuestion.issueToken.injEq] at arguments
            exact ⟨doc, cert, ⟨posted, parsed, carried, live, certificate⟩, arguments⟩
          · exact absurd eq (not_issued (by rintro ⟨⟩))
        · rintro ⟨other, issued, checked, rfl, rfl, rfl⟩
          obtain rfl := same checked.parsed
          obtain rfl : issued = cert :=
            Option.some.inj (checked.certificate.decoded.symm.trans certificate.decoded)
          exact List.mem_append_left _ (List.mem_append_right _ List.mem_cons_self)
      · have fails : ∀ cert, ¬ CertificatePasses lib
            (clockAt (exchangeHost.answer (inputs 0) w (.consumeSeed (valorOf doc))).2
              (fun n => inputs (n + 1)) 0)
            (clockAt (exchangeHost.answer (inputs 0) w (.consumeSeed (valorOf doc))).2
              (fun n => inputs (n + 1)) 1) (certOf doc) cert :=
          fun cert passes => certificate ⟨cert, passes⟩
        obtain ⟨what, w', count, compared, ran, only⟩ := run_validate_refuses fails _
        rw [ran]
        dsimp only
        rw [run_respond]
        refine iff_of_false (fun stored => ?_) ?_
        · simp only [List.mem_append, List.mem_singleton, List.not_mem_nil, false_or] at stored
          rcases stored with (eq | here) | eq
          · exact absurd eq (not_issued (by rintro ⟨⟩))
          · obtain ⟨time, x, eq⟩ := only _ here
            exact absurd eq (not_issued (by rintro ⟨⟩))
          · exact absurd eq (not_issued (by rintro ⟨⟩))
        · rintro ⟨other, cert, passes, -⟩
          obtain rfl := same passes.parsed
          exact certificate ⟨cert, passes.certificate⟩
    · rw [if_neg (mt seed_taken_iff.mp live), run_respond]
      refine iff_of_false (by simp [tokenStored]) ?_
      rintro ⟨other, cert, passes, -⟩
      obtain rfl := same passes.parsed
      exact live passes.live

@[simp] theorem not_accepted_nil : ¬ Accepted [] := by simp [Accepted]

@[simp] theorem accepted_append {seen : List (Event Exchange)} :
    Accepted (log ++ seen) ↔ Accepted log ∨ Accepted seen := by
  simp only [Accepted, List.mem_append, or_and_right, exists_or]

@[simp] theorem accepted_cons {e : Event Exchange} :
    Accepted (e :: log) ↔ Succeeds e ∨ Accepted log := by
  simp [Accepted]

/-- An active token gives its subject. -/
theorem run_authorized {α : Type} (log : List (Event Exchange))
    (passes : TokenPasses w inputs req)
    (k : Option String → Handler α) :
    ∃ subject, exchangeHost.run (fun n => some (inputs n)) w log (isAuthorizedB2B req >>= k) =
      exchangeHost.run (fun n => some (inputs (n + 1))) { w with clock := clockAt w inputs 0 }
        (log ++ [⟨.authorize (bearerToken req), some subject⟩]) (k (some subject)) := by
  obtain ⟨present, active, found, live⟩ := passes
  refine ⟨active.certSubject, ?_⟩
  have answered : exchangeHost.answer (inputs 0) w (.authorize (bearerToken req)) =
      (some active.certSubject, { w with clock := clockAt w inputs 0 }) := by
    change answerAt (inputs 0) { w with clock := clockAt w inputs 0 } (.authorize _) = _
    simp only [answerAt, found]
    exact if_neg (not_lt.mpr live)
  unfold isAuthorizedB2B
  rw [if_neg present, run_ask, answered]

/-- Without one there is no subject. -/
theorem run_unauthorized {α : Type} (log : List (Event Exchange))
    (fails : ¬ TokenPasses w inputs req)
    (k : Option String → Handler α) :
    ∃ w' count seen, exchangeHost.run (fun n => some (inputs n)) w log (isAuthorizedB2B req >>= k) =
        exchangeHost.run (fun n => some (inputs (n + count))) w' (log ++ seen) (k none) ∧
      ¬ Accepted seen := by
  unfold isAuthorizedB2B
  by_cases present : bearerToken req = ""
  · rw [if_pos present]
    exact ⟨w, 0, [], by rw [List.append_nil]; rfl, not_accepted_nil⟩
  rw [if_neg present, run_ask]
  have answered : (exchangeHost.answer (inputs 0) w (.authorize (bearerToken req))).1 = none := by
    change (answerAt (inputs 0) { w with clock := clockAt w inputs 0 } (.authorize _)).1 = _
    simp only [answerAt]
    cases found : w.tokens (bearerToken req) with
    | none => rfl
    | some active =>
      have isOver : active.expiresAt < clockAt w inputs 0 :=
        not_le.mp fun live => fails ⟨present, active, found, live⟩
      exact congrArg Prod.fst (if_pos isOver)
  rw [answered]
  exact ⟨_, 1, [⟨.authorize _, none⟩], rfl, by simp [Succeeds]⟩

/-- Both handlers ask for a token, then for a document. -/
theorem accepted_read_iff {body : Document → Handler Unit} {empty malformed : String}
    {P : Document → Prop}
    (accepts : ∀ doc subject, Accepted (exchangeHost.run (fun n => some (inputs (n + 1)))
      { w with clock := clockAt w inputs 0 } [⟨.authorize (bearerToken req), some subject⟩]
      (body doc)).log ↔ P doc) :
    Accepted (exchangeHost.run (fun n => some (inputs n)) w [] (isAuthorizedB2B req >>= fun
      | none => ask (.respond unauthorized)
      | some _ =>
        if extractXmlContent req = "" then ask (.respond (plain 400 empty))
        else
          match lib.xmlReadMemory (extractXmlContent req) with
          | none => ask (.respond (plain 400 malformed))
          | some doc => body doc)).log ↔
      TokenPasses w inputs req ∧ extractXmlContent req ≠ "" ∧
        ∃ doc, lib.xmlReadMemory (extractXmlContent req) = some doc ∧ P doc := by
  by_cases token : TokenPasses w inputs req
  · obtain ⟨subject, ran⟩ := run_authorized [] token _
    rw [ran]
    dsimp only
    by_cases posted : extractXmlContent req = ""
    · rw [if_pos posted, run_respond]
      exact iff_of_false (by simp [Succeeds, plain]) fun passes => passes.2.1 posted
    rw [if_neg posted]
    cases parsed : lib.xmlReadMemory (extractXmlContent req) with
    | none =>
      dsimp only
      rw [run_respond]
      exact iff_of_false (by simp [Succeeds, plain]) fun ⟨_, _, doc, other, _⟩ => nomatch other
    | some doc =>
      refine (accepts doc subject).trans ⟨fun holds => ⟨token, posted, doc, rfl, holds⟩, ?_⟩
      rintro ⟨-, -, other, same, holds⟩
      rw [Option.some.inj same]
      exact holds
  · obtain ⟨w', count, seen, ran, silent⟩ := run_unauthorized [] token _
    rw [ran]
    dsimp only
    rw [run_respond]
    refine iff_of_false (by simp [silent, Succeeds, unauthorized, plain]) ?_
    exact fun passes => token passes.1

/-- `recepcioneCF` accepts what passes its checks. -/
theorem reception_accepted_iff :
    Accepted (runAlone lib w inputs (.recepcioneCF req)).log ↔
      TokenPasses w inputs req ∧ extractXmlContent req ≠ "" ∧
        ∃ doc, lib.xmlReadMemory (extractXmlContent req) = some doc ∧ Receivable inputs doc := by
  unfold runAlone handler
  dsimp only
  unfold recepcioneCF
  refine accepted_read_iff fun doc subject => ?_
  dsimp only
  by_cases carried : emisorOf doc = "" ∨ encfOf doc = "" ∨ compradorOf doc = ""
  · rw [if_pos carried, run_respond]
    exact iff_of_false (by simp [Succeeds, plain]) fun passes => passes.carried carried
  rw [if_neg carried]
  by_cases fields : FieldsPass doc
  · rw [if_neg (by rw [fields]; exact Bool.false_ne_true), run_ask]
    split
    · next recipient =>
      rw [run_ask, run_ask]
      split
      · next signedArecf signed =>
        rw [run_respond]
        exact iff_of_true (by simp [Succeeds, xml]) ⟨carried, fields, recipient, signedArecf, signed⟩
      · next what failed =>
        rw [run_respond]
        refine iff_of_false (by simp [Succeeds, plain]) fun passes => ?_
        obtain ⟨signedArecf, signed⟩ := passes.answered
        cases failed.symm.trans signed
    · next stranger =>
      rw [run_respond]
      exact iff_of_false (by simp [Succeeds, plain, unknownRecipient]) fun passes =>
        stranger passes.recipient
  · rw [if_pos (Bool.eq_true_of_not_eq_false fields), run_respond]
    exact iff_of_false (by simp [Succeeds, plain]) fun passes => fields passes.fields

theorem approvalResponse_ok (req : PeerRequest) : (approvalResponse req).statusCode = 200 := by
  unfold approvalResponse
  split
  · rfl
  · rfl

/-- `aprobacionComercial` accepts what passes its checks. -/
theorem approval_accepted_iff :
    Accepted (runAlone lib w inputs (.aprobacionComercial req)).log ↔
      TokenPasses w inputs req ∧ extractXmlContent req ≠ "" ∧
        ∃ doc, lib.xmlReadMemory (extractXmlContent req) = some doc ∧ Approvable inputs doc := by
  unfold runAlone handler
  dsimp only
  unfold aprobacionComercial
  refine accepted_read_iff fun doc subject => ?_
  dsimp only
  by_cases carried : emisorOf doc = "" ∨ compradorOf doc = "" ∨ encfOf doc = "" ∨ estadoOf doc = ""
  · rw [if_pos carried, run_respond]
    exact iff_of_false (by simp [Succeeds, plain]) fun passes => passes.carried carried
  rw [if_neg carried]
  by_cases value : sigOf doc = ""
  · rw [if_pos value, run_respond]
    exact iff_of_false (by simp [Succeeds, plain]) fun passes => passes.value value
  rw [if_neg value]
  by_cases fields : FieldsPass doc
  · rw [if_neg (by rw [fields]; exact Bool.false_ne_true), run_ask]
    split
    · next recipient =>
      rw [run_respond]
      exact iff_of_true (by simp [Succeeds, approvalResponse_ok]) ⟨carried, value, fields, recipient⟩
    · next stranger =>
      rw [run_respond]
      exact iff_of_false (by simp [Succeeds, plain, unknownRecipient]) fun passes =>
        stranger passes.recipient
  · rw [if_pos (Bool.eq_true_of_not_eq_false fields), run_respond]
    exact iff_of_false (by simp [Succeeds, plain]) fun passes => fields passes.fields

end

/-! ## Seeds of this server -/

/-- The seeds in the table were issued, for ten minutes. -/
def SeedsIssued (p : Peers) : Prop :=
  ∀ valor expiresAt, p.world.seeds valor = some expiresAt →
    ∃ now, SeedIssued p.history valor now ∧ expiresAt = now + tenMinutes

variable {lib : Libraries} {endpoints : ℕ → Endpoint}

theorem seedIssued_append {history : History} {valor : String} {now : ℕ}
    (issued : SeedIssued history valor now) (later : History) :
    SeedIssued (history ++ later) valor now := by
  obtain ⟨t, read, stored⟩ := issued
  exact ⟨t, List.mem_append_left _ read, List.mem_append_left _ stored⟩

/-- A seed that an answer leaves in the table was there, or has just been stored. -/
theorem seeds_answer {i : Input} {w : World} {r : PeerQuestion} {valor : String} {expiresAt : ℕ}
    (there : (exchangeHost.answer i w r).2.seeds valor = some expiresAt) :
    w.seeds valor = some expiresAt ∨ r = .issueSeed valor expiresAt := by
  have pruned : ∀ {clock : ℕ}, pruneExpiredSeeds clock w.seeds valor = some expiresAt →
      w.seeds valor = some expiresAt := fun kept => (Option.filter_eq_some_iff.mp kept).1
  cases r with
  | issueSeed other expiresAt' =>
    change Function.update _ other _ valor = _ at there
    by_cases same : valor = other
    · subst same
      rw [Function.update_self] at there
      exact .inr (by rw [Option.some.inj there])
    · rw [Function.update_of_ne same] at there
      exact .inl (pruned there)
  | consumeSeed other =>
    change Function.update _ other _ valor = _ at there
    by_cases same : valor = other
    · subst same
      rw [Function.update_self] at there
      cases there
    · rw [Function.update_of_ne same] at there
      exact .inl (pruned there)
  | authorize token =>
    change (answerAt _ _ _).2.seeds valor = _ at there
    simp only [answerAt] at there
    split at there
    · exact .inl there
    · split at there
      · exact .inl there
      · exact .inl there
  | _ => exact .inl there

/-- **Step.** A move keeps every seed in the table issued. -/
theorem SeedsIssued.move {p : Peers} (issued : SeedsIssued p)
    (verified : p.Verified (HandlerAsks lib) (fun _ _ _ => True)) (told : p.Told)
    (m : Move Input) : SeedsIssued (p.move exchangeHost m) := by
  cases m with
  | kill t => exact issued
  | step t i =>
    by_cases running : (p.thread t).Running
    · obtain ⟨r, next, rest⟩ := running
      intro valor expiresAt there
      rw [Pool.move_step rest] at there ⊢
      rcases seeds_answer there with before | rfl
      · obtain ⟨now, seed, long⟩ := issued valor expiresAt before
        exact ⟨now, seedIssued_append seed _, long⟩
      · have permitted := verified.permitted rest
        cases permitted with
        | issueSeed draw read first =>
          exact ⟨_, ⟨t, List.mem_append_left _ ((told t _).mpr read),
            List.mem_append_right _ List.mem_cons_self⟩, rfl⟩
    · rw [Pool.move_idle running]
      exact issued

/-- In every schedule from empty tables the seeds in the table were issued. -/
theorem seedsIssued_play (lib : Libraries) (endpoints : ℕ → Endpoint) (clock : ℕ)
    (moves : List (Move Input)) :
    SeedsIssued ((exchange lib endpoints clock).play exchangeHost moves) := by
  have sound : ∀ (p : Peers) m,
      (p.Verified (HandlerAsks lib) (fun _ _ _ => True) ∧ p.Told ∧ SeedsIssued p) → True →
        (p.move exchangeHost m).Verified (HandlerAsks lib) (fun _ _ _ => True) ∧
          (p.move exchangeHost m).Told ∧ SeedsIssued (p.move exchangeHost m) :=
    fun p m ⟨verified, told, issued⟩ _ =>
      ⟨verified.move m, told.move m, issued.move verified told m⟩
  have start : (exchange lib endpoints clock).Verified (HandlerAsks lib) (fun _ _ _ => True) ∧
      (exchange lib endpoints clock).Told ∧ SeedsIssued (exchange lib endpoints clock) :=
    ⟨fun _ => handler_keeps lib _, Pool.told_start _ _ _, fun _ _ there => nomatch there⟩
  exact (Pool.play_invariant sound start (Pool.meets_true _ moves)).2.2

/-! ## Acceptance and signatures -/

/-- What OpenSSL finds begun and can read has begun. -/
theorem begun_of_compare {clock : ℕ} {time : Option ℤ} (compared : cmpCurrentTime clock time ≤ 0)
    (readable : time ≠ none) :
    ∃ begin', time = some begin' ∧ begin' ≤ ((clock / second : ℕ) : ℤ) := by
  cases time with
  | none => exact absurd rfl readable
  | some begin' =>
    refine ⟨begin', rfl, ?_⟩
    by_contra early
    simp only [cmpCurrentTime, if_neg early] at compared
    omega

/-- What it does not find over and can read is not over. -/
theorem lasting_of_compare {clock : ℕ} {time : Option ℤ} (compared : 0 ≤ cmpCurrentTime clock time)
    (readable : time ≠ none) : ∃ end', time = some end' ∧ ((clock / second : ℕ) : ℤ) ≤ end' := by
  cases time with
  | none => exact absurd rfl readable
  | some end' =>
    refine ⟨end', rfl, ?_⟩
    by_contra isOver
    have late : end' ≤ ((clock / second : ℕ) : ℤ) := by omega
    simp only [cmpCurrentTime, if_pos late] at compared
    omega

/-- **Possession.** After any schedule of the exchange, what a request is given
is signed for under its certificate exactly when everything that passes the
controller's checks is genuine, whatever the clock and the tables. -/
theorem accepts_signed_iff (lib : Libraries) (verifies : Verifier) (endpoints : ℕ → Endpoint)
    (clock : ℕ) (moves : List (Move Input)) (inputs : ℕ → Input) (op : Endpoint) :
    Signed lib verifies ((exchange lib endpoints clock).play exchangeHost moves) inputs op ↔
      Genuine lib verifies ((exchange lib endpoints clock).play exchangeHost moves).world inputs
        op := by
  have issued := seedsIssued_play lib endpoints clock moves
  generalize (exchange lib endpoints clock).play exchangeHost moves = p at issued ⊢
  cases op with
  | getSemilla => exact Iff.rfl
  | validarSemilla req =>
    constructor
    · intro signed doc cert passes
      obtain ⟨doc', cert', here⟩ := signed _ _ _ (token_issued_iff.mpr ⟨doc, cert, passes, rfl, rfl, rfl⟩)
      obtain rfl : doc' = doc := Option.some.inj (here.parsed.symm.trans passes.parsed)
      obtain rfl : cert' = cert :=
        Option.some.inj (here.certificate.symm.trans passes.certificate.decoded)
      obtain ⟨begin', begun, -⟩ := here.entered
      obtain ⟨end', lasting, -⟩ := here.lasting
      exact ⟨⟨by simp [begun], by simp [lasting]⟩, (oneline_eq_iff _ _).mp here.named, here.signed⟩
    · intro genuine token expiresAt subject stored
      obtain ⟨doc, cert, passes, -, -, rfl⟩ := token_issued_iff.mp stored
      obtain ⟨readable, fits, verified⟩ := genuine doc cert passes
      obtain ⟨expires, there, live⟩ := passes.live
      obtain ⟨now, seed, rfl⟩ := issued _ _ there
      exact ⟨doc, cert, passes.parsed, ⟨now, seed, live⟩, passes.certificate.decoded,
        begun_of_compare passes.certificate.entered readable.1,
        lasting_of_compare passes.certificate.lasting readable.2, (oneline_eq_iff _ _).mpr fits,
        verified⟩
  | recepcioneCF req =>
    constructor
    · intro signed token posted doc parsed passes
      exact signed (reception_accepted_iff.mpr ⟨token, posted, doc, parsed, passes⟩)
    · intro genuine accepted
      obtain ⟨token, posted, doc, parsed, passes⟩ := reception_accepted_iff.mp accepted
      exact genuine token posted doc parsed passes
  | aprobacionComercial req =>
    constructor
    · intro signed token posted doc parsed passes
      exact signed (approval_accepted_iff.mpr ⟨token, posted, doc, parsed, passes⟩)
    · intro genuine accepted
      obtain ⟨token, posted, doc, parsed, passes⟩ := approval_accepted_iff.mp accepted
      exact genuine token posted doc parsed passes

/-! ## A seed nobody signed -/

/-- Only one value is a signature. -/
def sampleVerifier : Verifier := fun _ sigValue _ => sigValue = "good"

/-- A seed has been fetched. -/
def seeded : Peers :=
  (exchange sampleLibraries sampleEndpoints 0).play exchangeHost (sampleMoves.take 4)

def samplePost : PeerRequest := { body := seedText }

def samplePeer : Certificate := ⟨["/CN=peer"], some 0, some 4000000000⟩

/-- The unsigned seed passes every check. -/
theorem sample_passes : SeedPasses sampleLibraries seeded.world (fun _ => {}) samplePost
    seedDocument samplePeer where
  posted := by decide +kernel
  parsed := by
    unfold extractXmlContent
    exact read_seedText
  carried := by decide +kernel
  live := ⟨tenMinutes, by decide +kernel⟩
  certificate := ⟨by decide +kernel, rfl, by decide +kernel, by decide +kernel⟩

/-- A seed that comes back with the signature value `x` gets a token. -/
theorem unsigned_seed_gets_token :
    ¬ Signed sampleLibraries sampleVerifier seeded (fun _ => {}) (.validarSemilla samplePost) := by
  intro signed
  obtain ⟨doc, cert, here⟩ :=
    signed _ _ _ (token_issued_iff.mpr ⟨seedDocument, samplePeer, sample_passes, rfl, rfl, rfl⟩)
  obtain rfl : doc = seedDocument :=
    Option.some.inj (here.parsed.symm.trans sample_passes.parsed)
  exact absurd here.signed (by unfold sampleVerifier; decide +kernel)

end EcfDgii.PeerSignatures
