import EcfDgii.PeerSignatures
import EcfDgii.SummaryDocuments

/-!
What peers are told about the documents they post.

`recepcioneCF` answers an invoice with a signed `ARECF`.  A reader finds in its
text the RNCs and the number of the invoice, whatever they are
(`readArecf_unsignedArecf`).  `documents_taken` says where a 200 comes from, in
any schedule of the exchange: from a document whose fiscal values have their
form, a buyer with a signer of its own, and a token that was given within the
hour to who took a seed.
-/

set_option autoImplicit false

namespace EcfDgii.PeerReceipts

open EcfDgii.Text EcfDgii.Calendar EcfDgii.Timestamps EcfDgii.Programs EcfDgii.Execution
open EcfDgii.EmisorReceptorController EcfDgii.PeerTokens EcfDgii.PeerSignatures
open EcfDgii.Markup EcfDgii.Elements EcfDgii.SummaryDocuments EcfDgii.EscapedBytes

/-! ## Reading an ARECF -/

/-- The elements of `DetalleAcusedeRecibo`. -/
def detailNames : List String :=
  ["Version", "RNCEmisor", "RNCComprador", "eNCF", "Estado", "FechaHoraAcuseRecibo"]

/-- The texts a reader finds in them. -/
def readArecf (xml : String) : Option (List (List Char)) := do
  let root ← readSpaced fiveEntities xml.toList
  let detail ← root.child "DetalleAcusedeRecibo"
  detailNames.mapM fun name => (detail.child name).map Node.text

/-- `%d-%m-%Y %H:%M:%S` of a moment, four hours to the west. -/
def fechaHora (now : ℕ) : List Char :=
  let local' := now - 4 * 3600 * second
  let date := civilFromDays (local' / second / 86400)
  let inDay := local' / second % 86400
  padded 2 date.day ++ '-' :: (padded 2 date.month ++ '-' ::
    (Nat.toDigits 10 date.year ++ ' ' :: (padded 2 (inDay / 3600) ++ ':' ::
      (padded 2 (inDay % 3600 / 60) ++ ':' :: padded 2 (inDay % 60)))))

/-! ### The text in pieces -/

def blanks (n : ℕ) : List Char := List.replicate n ' '

def wrapped (name : String) (inner : List Char) : List Char :=
  openTag name ++ (inner ++ closeTag name)

/-- A line of the detail. -/
def line (part : String × List Char) : List Char :=
  '\n' :: (blanks 4 ++ wrapped part.1 part.2)

/-- The text of an `ARECF` after its declaration. -/
def arecfText (parts : List (String × List Char)) : List Char :=
  '\n' :: (wrapped "ARECF" ('\n' :: (blanks 2 ++ (wrapped "DetalleAcusedeRecibo"
    (parts.flatMap line ++ '\n' :: blanks 2) ++ ['\n']))) ++ ['\n'])

theorem unsignedArecf_eq (rncEmisor rncComprador encf : String) (now : ℕ) :
    unsignedArecf rncEmisor rncComprador encf now =
      "<?xml version=\"1.0\" encoding=\"utf-8\"?>\n<ARECF>\n  <DetalleAcusedeRecibo>\n" ++
      "    <Version>1.0</Version>\n    <RNCEmisor>" ++ escapeXml rncEmisor ++ "</RNCEmisor>\n" ++
      "    <RNCComprador>" ++ escapeXml rncComprador ++ "</RNCComprador>\n    <eNCF>" ++
      escapeXml encf ++ "</eNCF>\n    <Estado>0</Estado>\n    <FechaHoraAcuseRecibo>" ++
      String.ofList (fechaHora now) ++
      "</FechaHoraAcuseRecibo>\n  </DetalleAcusedeRecibo>\n</ARECF>\n" := rfl

/-- The elements of a receipt, with what stands in them. -/
def receiptParts (rncEmisor rncComprador encf : List Char) (now : ℕ) : List (String × List Char) :=
  [("Version", ['1', '.', '0']), ("RNCEmisor", rncEmisor), ("RNCComprador", rncComprador),
    ("eNCF", encf), ("Estado", ['0']), ("FechaHoraAcuseRecibo", fechaHora now)]

theorem unsignedArecf_toList (rncEmisor rncComprador encf : String) (now : ℕ) :
    (unsignedArecf rncEmisor rncComprador encf now).toList =
      "<?xml version=\"1.0\" encoding=\"utf-8\"?>".toList ++ arecfText
        (receiptParts (escapeXml rncEmisor).toList (escapeXml rncComprador).toList
          (escapeXml encf).toList now) := by
  have start :
      "<?xml version=\"1.0\" encoding=\"utf-8\"?>\n<ARECF>\n  <DetalleAcusedeRecibo>\n".toList =
      "<?xml version=\"1.0\" encoding=\"utf-8\"?>".toList ++ '\n' :: (openTag "ARECF" ++
        '\n' :: (blanks 2 ++ (openTag "DetalleAcusedeRecibo" ++ ['\n']))) := rfl
  have version : "    <Version>1.0</Version>\n    <RNCEmisor>".toList = blanks 4 ++
      (openTag "Version" ++ '1' :: '.' :: '0' :: (closeTag "Version" ++
        '\n' :: (blanks 4 ++ openTag "RNCEmisor"))) := rfl
  have emisor : "</RNCEmisor>\n".toList = closeTag "RNCEmisor" ++ ['\n'] := rfl
  have comprador : "    <RNCComprador>".toList = blanks 4 ++ openTag "RNCComprador" := rfl
  have number : "</RNCComprador>\n    <eNCF>".toList =
      closeTag "RNCComprador" ++ '\n' :: (blanks 4 ++ openTag "eNCF") := rfl
  have estado : "</eNCF>\n    <Estado>0</Estado>\n    <FechaHoraAcuseRecibo>".toList =
      closeTag "eNCF" ++ '\n' :: (blanks 4 ++ (openTag "Estado" ++ '0' :: (closeTag "Estado" ++
        '\n' :: (blanks 4 ++ openTag "FechaHoraAcuseRecibo")))) := rfl
  have finish : "</FechaHoraAcuseRecibo>\n  </DetalleAcusedeRecibo>\n</ARECF>\n".toList =
      closeTag "FechaHoraAcuseRecibo" ++ '\n' :: (blanks 2 ++ (closeTag "DetalleAcusedeRecibo" ++
        '\n' :: (closeTag "ARECF" ++ ['\n']))) := rfl
  rw [unsignedArecf_eq]
  simp only [String.toList_append, String.toList_ofList, start, version, emisor, comprador, number,
    estado, finish, arecfText, receiptParts, wrapped, line, List.flatMap_cons, List.flatMap_nil,
    List.append_assoc, List.cons_append, List.nil_append]

/-! ### What a reader sees -/

/-- An escaped character is read as itself. -/
theorem sees_escapeXml (s : String) :
    Sees fiveEntities (escapeXml s).toList (s.toList.map .char) := by
  rw [escapeXml, String.toList_ofList, List.map_eq_flatMap]
  refine Sees.flatMap fun c _ => ?_
  split
  · exact @sees_entity "amp".toList _ (by simp [XmlFormats.predefined])
  · exact @sees_entity "lt".toList _ (by simp [XmlFormats.predefined])
  · exact @sees_entity "gt".toList _ (by simp [XmlFormats.predefined])
  · exact @sees_entity "quot".toList _ (by simp [XmlFormats.predefined])
  · exact @sees_entity "apos".toList _ (by simp [XmlFormats.predefined])
  · next amp less greater _ _ => exact .char less amp greater

/-- The characters of a printed moment. -/
theorem fechaHora_plain (now : ℕ) : ∀ c ∈ fechaHora now, c ≠ '<' ∧ c ≠ '&' ∧ c ≠ '>' := by
  have digit : ∀ {c : Char}, c.isDigit = true → c ≠ '<' ∧ c ≠ '&' ∧ c ≠ '>' := by
    intro c digit
    exact ⟨by rintro rfl; exact absurd digit (by decide),
      by rintro rfl; exact absurd digit (by decide), by rintro rfl; exact absurd digit (by decide)⟩
  have padded : ∀ {n : ℕ} {c : Char}, c ∈ padded 2 n → c ≠ '<' ∧ c ≠ '&' ∧ c ≠ '>' :=
    fun member => digit (padded_digits member)
  have year : ∀ {n : ℕ} {c : Char}, c ∈ Nat.toDigits 10 n → c ≠ '<' ∧ c ≠ '&' ∧ c ≠ '>' := by
    intro n c member
    rw [← padded_one] at member
    exact digit (padded_digits member)
  intro c member
  simp only [fechaHora, List.mem_append, List.mem_cons] at member
  rcases member with h | rfl | h | rfl | h | rfl | h | rfl | h | rfl | h
  all_goals first | exact padded h | exact year h | decide

theorem blanks_plain (n : ℕ) : ∀ c ∈ blanks n, c ≠ '<' ∧ c ≠ '&' ∧ c ≠ '>' := by
  intro c member
  obtain rfl := (List.mem_replicate.mp member).2
  decide

/-- The nodes of a line: space, and its element. -/
def lineNodes (part : String × List Char) : List Node :=
  ('\n' :: blanks 4).map .char ++ [.element part.1.toList (part.2.map .char)]

/-- The nodes of the detail. -/
def detailNodes (parts : List (String × List Char)) : List Node :=
  parts.flatMap lineNodes ++ ('\n' :: blanks 2).map .char

/-- The nodes of an `ARECF`. -/
def arecfNodes (parts : List (String × List Char)) : List Node :=
  ('\n' :: blanks 2).map .char ++
    ([.element "DetalleAcusedeRecibo".toList (detailNodes parts)] ++ ['\n'].map .char)

/-- A break and some blanks are data. -/
theorem holds_break (n : ℕ) :
    Holds fiveEntities ('\n' :: blanks n) (('\n' :: blanks n).map .char) := by
  refine Holds.data (Sees.plain fun c member => ?_)
  rcases List.mem_cons.mp member with rfl | blank
  · decide
  · exact blanks_plain n c blank

/-- A line is read as its element when its text is read. -/
theorem holds_line (name : String) (named : isName name.toList = true) {text cs : List Char}
    (sees : Sees fiveEntities text (cs.map .char)) :
    Holds fiveEntities (line (name, text)) (lineNodes (name, cs)) :=
  (holds_break 4).append (Holds.element named (Holds.data sees))

/-- The text of a receipt holds its nodes. -/
theorem holds_arecfText {texts parts : List (String × List Char)}
    (lines : Holds fiveEntities (texts.flatMap line) (parts.flatMap lineNodes)) :
    Holds fiveEntities (arecfText texts)
      (['\n'].map .char ++ ([.element "ARECF".toList (arecfNodes parts)] ++ ['\n'].map .char)) := by
  have detail : Holds fiveEntities (texts.flatMap line ++ '\n' :: blanks 2) (detailNodes parts) :=
    lines.append (holds_break 2)
  have detailNamed : isName "DetalleAcusedeRecibo".toList = true := by decide
  have rootNamed : isName "ARECF".toList = true := by decide
  have inner := (holds_break 2).append ((Holds.element detailNamed detail).append (holds_break 0))
  exact (holds_break 0).append ((Holds.element rootNamed inner).append (holds_break 0))

/-- The lines of a receipt hold what was escaped. -/
theorem holds_receiptParts (rncEmisor rncComprador encf : String) (now : ℕ) :
    Holds fiveEntities
      ((receiptParts (escapeXml rncEmisor).toList (escapeXml rncComprador).toList
        (escapeXml encf).toList now).flatMap line)
      ((receiptParts rncEmisor.toList rncComprador.toList encf.toList now).flatMap lineNodes) := by
  have plain : ∀ cs : List Char, (∀ c ∈ cs, c ≠ '<' ∧ c ≠ '&' ∧ c ≠ '>') →
      Sees fiveEntities cs (cs.map .char) := fun _ => Sees.plain
  have version := holds_line "Version" (by decide) (plain ['1', '.', '0'] (by simp))
  have emisor := holds_line "RNCEmisor" (by decide) (sees_escapeXml rncEmisor)
  have comprador := holds_line "RNCComprador" (by decide) (sees_escapeXml rncComprador)
  have number := holds_line "eNCF" (by decide) (sees_escapeXml encf)
  have estado := holds_line "Estado" (by decide) (plain ['0'] (by simp))
  have moment := holds_line "FechaHoraAcuseRecibo" (by decide) (plain _ (fechaHora_plain now))
  have nothing : Holds fiveEntities [] [] := Sees.nil
  exact version.append (emisor.append (comprador.append (number.append (estado.append
    (moment.append nothing)))))

/-- A search in the detail finds the part of that name. -/
theorem find_detail (parts : List (String × List Char)) (name : String) :
    ((detailNodes parts).find? (Node.isNamed name)).map Node.text =
      (parts.find? fun part => part.1 = name).map Prod.snd := by
  induction parts with
  | nil => rfl
  | cons part parts ih =>
    have here : Node.isNamed name (.element part.1.toList (part.2.map .char)) =
        decide (part.1 = name) := decide_eq_decide.mpr String.toList_inj
    rw [detailNodes, List.flatMap_cons, lineNodes, List.append_assoc, List.append_assoc,
      find_skips_data, List.singleton_append, List.find?_cons, List.find?_cons, here]
    cases decide (part.1 = name)
    · exact ih
    · exact congrArg some (text_data _ _)

/-- **A receipt names what it is for.** A reader finds in the text of an `ARECF`
the RNCs and the number it was made from, whatever they are. -/
theorem readArecf_unsignedArecf (rncEmisor rncComprador encf : String) (now : ℕ) :
    readArecf (unsignedArecf rncEmisor rncComprador encf now) =
      some [['1', '.', '0'], rncEmisor.toList, rncComprador.toList, encf.toList, ['0'],
        fechaHora now] := by
  let parts := receiptParts rncEmisor.toList rncComprador.toList encf.toList now
  have text : undeclared (unsignedArecf rncEmisor rncComprador encf now).toList =
      arecfText (receiptParts (escapeXml rncEmisor).toList (escapeXml rncComprador).toList
        (escapeXml encf).toList now) := by
    rw [unsignedArecf_toList]
    rfl
  have root : readSpaced fiveEntities (unsignedArecf rncEmisor rncComprador encf now).toList =
      some (.element "ARECF".toList (arecfNodes parts)) :=
    readSpaced_of_holds (text ▸ holds_arecfText (holds_receiptParts _ _ _ now)) rfl
  have detail : (Node.element "ARECF".toList (arecfNodes parts)).child "DetalleAcusedeRecibo" =
      some (.element "DetalleAcusedeRecibo".toList (detailNodes parts)) := by
    rw [Node.child, Node.children, arecfNodes, find_skips_data]
    exact List.find?_cons_of_pos (by simp [Node.isNamed])
  have found : ∀ name, ((Node.element "DetalleAcusedeRecibo".toList (detailNodes parts)).child
      name).map Node.text = (parts.find? fun part => part.1 = name).map Prod.snd :=
    find_detail parts
  rw [readArecf, root, Option.bind_eq_bind, Option.bind_some, detail, Option.bind_some]
  simp only [found]
  rfl

/-! ## Who is answered -/

/-- The request of an endpoint that takes documents. -/
def postOf : Endpoint → Option PeerRequest
  | .recepcioneCF req => some req
  | .aprobacionComercial req => some req
  | _ => none

/-- What has been seen when a document is taken: its token is accepted, and its
buyer has a signer of its own. -/
structure Admitted (req : PeerRequest) (doc : Document) (log : List (Event Exchange)) : Prop where
  token : ∃ subject, asked (bearerToken req) (some subject) ∈ log
  buyer : ∃ signer, registered signer = true ∧
    (⟨.resolveTenantSignerOnly (compradorOf doc), signer⟩ : Event Exchange) ∈ log

/-- What has been seen when an invoice is answered 200: its receipt was signed. -/
def ReceiptSigned (doc : Document) (log : List (Event Exchange)) (response : Engine.HttpResponse) :
    Prop :=
  ∃ now signed, momentRead now ∈ log ∧
    (⟨.signXml (unsignedArecf (emisorOf doc) (compradorOf doc) (encfOf doc) now) (compradorOf doc),
      .ok signed⟩ : Event Exchange) ∈ log ∧ response = xml 200 signed

/-- What an approval has that is answered 200. -/
def ApprovalComplete (req : PeerRequest) (doc : Document) (response : Engine.HttpResponse) : Prop :=
  estadoOf doc ≠ "" ∧ sigOf doc ≠ "" ∧ response = approvalResponse req

/-- What each endpoint adds to that. -/
def Particular : Endpoint → Document → List (Event Exchange) → Engine.HttpResponse → Prop
  | .recepcioneCF _, doc, log, response => ReceiptSigned doc log response
  | .aprobacionComercial req, doc, _, response => ApprovalComplete req doc response
  | _, _, _, _ => True

/-- A 200 to a posted document is given for a reason. -/
def AnswersFor (lib : Libraries) (op : Endpoint) (log : List (Event Exchange))
    (question : PeerQuestion) : Prop :=
  ∀ req response, postOf op = some req → question = .respond response → response.statusCode = 200 →
    ∃ doc, lib.xmlReadMemory (extractXmlContent req) = some doc ∧ FieldsPass doc ∧
      Admitted req doc log ∧ Particular op doc log response

section

variable {lib : Libraries} {op : Endpoint} {log : List (Event Exchange)} {req : PeerRequest}

/-- A handler that answers only for a reason. -/
abbrev AnswersSoundly {α : Type} (lib : Libraries) (op : Endpoint) (log : List (Event Exchange))
    (p : Handler α) : Prop :=
  p.Follows (.logging (AnswersFor lib op)) (fun _ _ => True) (fun _ _ => True) log

/-- A question that is no answer. -/
def Silent : PeerQuestion → Prop
  | .respond _ => False
  | _ => True

/-- It needs no reason. -/
theorem answersFor_silent {question : PeerQuestion} (silent : Silent question) :
    AnswersFor lib op log question := by
  rintro _ response - rfl
  exact silent.elim

/-- Nor does an answer that is no 200. -/
theorem refusal_sound {response : Engine.HttpResponse} (refuses : response.statusCode ≠ 200) :
    AnswersSoundly lib op log (ask (.respond response)) := by
  refine (follows_logging_perform _).mpr ⟨?_, fun _ => trivial⟩
  rintro _ _ - ⟨⟩ ok
  exact absurd ok refuses

theorem plain_sound {statusCode : ℕ} (refuses : statusCode ≠ 200) (body : String) :
    AnswersSoundly lib op log (ask (.respond (plain statusCode body))) :=
  refusal_sound refuses

/-- A request whose token is accepted. -/
theorem isAuthorizedB2B_shows (req : PeerRequest) :
    (isAuthorizedB2B req).Follows (.logging (AnswersFor lib op))
      (fun log caller => ∀ subject, caller = some subject →
        asked (bearerToken req) (some subject) ∈ log) (fun _ _ => True) [] := by
  unfold isAuthorizedB2B
  refine .ite (fun _ => by rintro _ ⟨⟩) fun _ => ?_
  refine (follows_logging_perform _).mpr ⟨answersFor_silent trivial, ?_⟩
  rintro caller subject rfl
  exact List.mem_singleton_self _

theorem recepcioneCF_sound (req : PeerRequest) :
    AnswersSoundly lib (.recepcioneCF req) [] (recepcioneCF lib req) := by
  unfold recepcioneCF
  refine Program.Follows.bind (isAuthorizedB2B_shows req) fun log caller shown => ?_
  cases caller with
  | none => exact plain_sound (by decide) _
  | some subject =>
    refine .ite (fun _ => plain_sound (by decide) _) fun _ => ?_
    split
    · exact plain_sound (by decide) _
    · next doc parsed =>
      refine .ite (fun _ => plain_sound (by decide) _) fun _ =>
        .ite (fun _ => plain_sound (by decide) _) fun fields => ?_
      refine (follows_logging_bind _ _).mpr ⟨answersFor_silent trivial, fun signer => ?_⟩
      refine .ite (fun own => ?_) fun _ => plain_sound (by decide) _
      refine (follows_logging_bind _ _).mpr ⟨answersFor_silent trivial, fun now => ?_⟩
      refine (follows_logging_bind _ _).mpr ⟨answersFor_silent trivial, fun signed => ?_⟩
      cases signed with
      | error what => exact plain_sound (by decide) _
      | ok signedArecf =>
        refine (follows_logging_perform _).mpr ⟨?_, fun _ => trivial⟩
        rintro _ _ ⟨⟩ ⟨⟩ -
        refine ⟨doc, parsed, Bool.eq_false_iff.mpr fields, ⟨⟨subject, ?_⟩, signer, own, ?_⟩, now,
          signedArecf, ?_, ?_, rfl⟩
        · exact List.mem_append_left _ (List.mem_append_left _ (List.mem_append_left _
            (shown subject rfl)))
        · exact List.mem_append_left _ (List.mem_append_left _ (List.mem_append_right _
            List.mem_cons_self))
        · exact List.mem_append_left _ (List.mem_append_right _ List.mem_cons_self)
        · exact List.mem_append_right _ List.mem_cons_self

theorem aprobacionComercial_sound (req : PeerRequest) :
    AnswersSoundly lib (.aprobacionComercial req) [] (aprobacionComercial lib req) := by
  unfold aprobacionComercial
  refine Program.Follows.bind (isAuthorizedB2B_shows req) fun log caller shown => ?_
  cases caller with
  | none => exact plain_sound (by decide) _
  | some subject =>
    refine .ite (fun _ => plain_sound (by decide) _) fun _ => ?_
    split
    · exact plain_sound (by decide) _
    · next doc parsed =>
      refine .ite (fun _ => plain_sound (by decide) _) fun carried =>
        .ite (fun _ => plain_sound (by decide) _) fun signature =>
          .ite (fun _ => plain_sound (by decide) _) fun fields => ?_
      refine (follows_logging_bind _ _).mpr ⟨answersFor_silent trivial, fun signer => ?_⟩
      refine .ite (fun own => ?_) fun _ => plain_sound (by decide) _
      refine (follows_logging_perform _).mpr ⟨?_, fun _ => trivial⟩
      rintro _ _ ⟨⟩ ⟨⟩ -
      refine ⟨doc, parsed, Bool.eq_false_iff.mpr fields, ⟨⟨subject, ?_⟩, signer, own, ?_⟩, ?_,
        signature, rfl⟩
      · exact List.mem_append_left _ (shown subject rfl)
      · exact List.mem_append_right _ List.mem_cons_self
      · exact fun missing => carried (.inr (.inr (.inr missing)))

theorem handler_sound (lib : Libraries) (op : Endpoint) :
    AnswersSoundly lib op [] (handler lib op) := by
  cases op with
  | getSemilla => exact Program.follows_of_permitted fun _ _ _ _ => by rintro ⟨⟩
  | validarSemilla req => exact Program.follows_of_permitted fun _ _ _ _ => by rintro ⟨⟩
  | recepcioneCF req => exact recepcioneCF_sound req
  | aprobacionComercial req => exact aprobacionComercial_sound req

end

/-! ## In every schedule -/

section

variable (lib : Libraries) (endpoints : ℕ → Endpoint) (clock : ℕ) (moves : List (Move Input))

/-- A request shows its token at a step of a schedule, and it is live: it was
issued within the hour, to who had posted a seed and taken it. -/
structure ShowsToken (t : ℕ) (req : PeerRequest) (first : List (Move Input)) (i : Input) :
    Prop where
  reached : ∃ rest, moves = first ++ .step t i :: rest
  accepted : ∃ subject,
    ((exchange lib endpoints clock).play exchangeHost first).nextEvent exchangeHost t i =
      some (asked (bearerToken req) (some subject)) ∧
    ∃ issued u valor, Posts lib valor (endpoints u) ∧
      (u, seedTaken valor) ∈ ((exchange lib endpoints clock).play exchangeHost first).history ∧
      (u, momentRead issued) ∈ ((exchange lib endpoints clock).play exchangeHost first).history ∧
      (u, tokenStored (bearerToken req) (issued + oneHour) subject) ∈
        ((exchange lib endpoints clock).play exchangeHost first).history ∧
      ((exchange lib endpoints clock).play exchangeHost first).world.clock + i.elapsed ≤
        issued + oneHour

variable {lib endpoints clock moves}

/-- A token that was accepted in a schedule was shown at one of its steps. -/
theorem showsToken_of_asked {t : ℕ} {req : PeerRequest} {subject : String}
    (fresh : (exchange lib endpoints clock).Meets exchangeHost FreshUuids moves)
    (accepted : (t, asked (bearerToken req) (some subject)) ∈
      ((exchange lib endpoints clock).play exchangeHost moves).history) :
    ∃ first i, ShowsToken lib endpoints clock moves t req first i := by
  obtain ⟨first, i, rest, rfl, happens⟩ := Pool.happened accepted List.not_mem_nil
  obtain ⟨before, -⟩ := Pool.meets_append.mp fresh
  have sound : Sound lib endpoints ((exchange lib endpoints clock).play exchangeHost first) :=
    Pool.play_invariant (fun _ m sound fresh => sound.move m fresh)
      (sound_start lib endpoints clock) before
  obtain ⟨issued, ⟨u, read, stored⟩, live⟩ :=
    ((sound.exact t i).authorized _ _ happens subject).mp rfl
  obtain ⟨⟨valor, posts, taken⟩, -⟩ := sound.books.tokenDrawn u _ _ _ stored
  exact ⟨first, i, ⟨rest, rfl⟩, subject, happens, issued, u, valor, posts, taken, read, stored,
    live⟩

end

/-- **Documents are taken for a reason.** In every schedule of the exchange in
which UUIDs never repeat, a posted document is answered 200 only if its fiscal
values have their form, its request showed a live token, and its buyer has a
signer of its own; an invoice is then answered with the signature of an `ARECF`
in which a reader finds its RNCs and its number. -/
theorem documents_taken (lib : Libraries) (endpoints : ℕ → Endpoint) (clock : ℕ)
    (moves : List (Move Input))
    (fresh : (exchange lib endpoints clock).Meets exchangeHost FreshUuids moves) {t : ℕ}
    {req : PeerRequest} {response : Engine.HttpResponse} (posts : postOf (endpoints t) = some req)
    (answered : (t, (⟨.respond response, ()⟩ : Event Exchange)) ∈
      ((exchange lib endpoints clock).play exchangeHost moves).history)
    (ok : response.statusCode = 200) :
    ∃ doc, lib.xmlReadMemory (extractXmlContent req) = some doc ∧ FieldsPass doc ∧
      (∃ first i, ShowsToken lib endpoints clock moves t req first i) ∧
      (∃ signer, registered signer = true ∧
        (t, (⟨.resolveTenantSignerOnly (compradorOf doc), signer⟩ : Event Exchange)) ∈
          ((exchange lib endpoints clock).play exchangeHost moves).history) ∧
      (endpoints t = .recepcioneCF req → ∃ now unsigned signed,
        (t, momentRead now) ∈ ((exchange lib endpoints clock).play exchangeHost moves).history ∧
        (t, (⟨.signXml unsigned (compradorOf doc), .ok signed⟩ : Event Exchange)) ∈
          ((exchange lib endpoints clock).play exchangeHost moves).history ∧
        response = xml 200 signed ∧
        readArecf unsigned = some [['1', '.', '0'], (emisorOf doc).toList, (compradorOf doc).toList,
          (encfOf doc).toList, ['0'], fechaHora now]) ∧
      (endpoints t = .aprobacionComercial req → ApprovalComplete req doc response) := by
  obtain ⟨first, i, rest, cut, happens⟩ := Pool.happened answered List.not_mem_nil
  obtain ⟨next, running, -⟩ := Pool.nextEvent_some happens
  have verified : ((exchange lib endpoints clock).play exchangeHost first).Verified
      (AnswersFor lib) (fun _ _ _ => True) :=
    Pool.follows_play (handler_sound lib) first
  have operation : (((exchange lib endpoints clock).play exchangeHost first).thread t).operation =
      endpoints t := Pool.operation_play t first
  have reason := verified.permitted running
  rw [operation] at reason
  obtain ⟨doc, parsed, fields, ⟨⟨subject, accepted⟩, signer, own, resolved⟩, particular⟩ :=
    reason req response posts rfl ok
  -- what the request has seen by then stays in the history
  have seen : ∀ {e}, e ∈ (((exchange lib endpoints clock).play exchangeHost first).thread t).log →
      (t, e) ∈ ((exchange lib endpoints clock).play exchangeHost moves).history := by
    intro e member
    rw [cut, Pool.play_append]
    exact Pool.history_play ((Pool.told_play _ _ _ first t e).mpr member) _
  refine ⟨doc, parsed, fields, showsToken_of_asked fresh (seen accepted),
    ⟨signer, own, seen resolved⟩, fun invoice => ?_, fun approval => ?_⟩
  · rw [invoice] at particular
    obtain ⟨now, signed, read, signature, body⟩ := particular
    exact ⟨now, _, signed, seen read, seen signature, body, readArecf_unsignedArecf _ _ _ now⟩
  · rw [approval] at particular
    exact particular

/-! ## A sample invoice -/

/-- An invoice from one taxpayer to another, and what is found in it. -/
def invoiceText : String :=
  "<ECF><Encabezado><IdDoc><eNCF>E310000000001</eNCF></IdDoc>" ++
    "<Emisor><RNCEmisor>131111111</RNCEmisor></Emisor>" ++
    "<Comprador><RNCComprador> 132222222 </RNCComprador></Comprador></Encabezado></ECF>"

def sampleInvoice : Document := fun expr =>
  ([("//*[local-name()='RNCEmisor']", "131111111"),
    ("//*[local-name()='RNCComprador']", " 132222222 "),
    ("//*[local-name()='eNCF']", "E310000000001")] : List (String × String)).lookup expr

/-- The invoice can be read, too. -/
def invoiceLibraries : Libraries where
  xmlReadMemory content := if content = invoiceText then some sampleInvoice
    else sampleLibraries.xmlReadMemory content
  decodeCertificate := sampleLibraries.decodeCertificate

def invoicePost : PeerRequest := { authorization := "Bearer " ++ sampleToken, body := invoiceText }

def invoiceEndpoints : ℕ → Endpoint
  | 2 => .recepcioneCF invoicePost
  | t => sampleEndpoints t

/-- The invoice is posted with the token, and signed for. -/
def invoiceMoves : List (Move Input) :=
  sampleMoves ++ [.step 2 {}, .step 2 { signer := some ⟨false, false⟩ }, .step 2 {},
    .step 2 { signed := .ok "signed" }, .step 2 {}]

/-- An event is a 200 to the invoice. -/
def isReceipt (e : ℕ × Event Exchange) : Bool :=
  e.1 = 2 && match e.2.request with
    | .respond response => response.statusCode = 200
    | _ => false

theorem documents_taken_sample : ∃ now unsigned signed,
    (2, (⟨.signXml unsigned "132222222", .ok signed⟩ : Event Exchange)) ∈
      ((exchange invoiceLibraries invoiceEndpoints 0).play exchangeHost invoiceMoves).history ∧
    readArecf unsigned = some [['1', '.', '0'], "131111111".toList, "132222222".toList,
      "E310000000001".toList, ['0'], fechaHora now] := by
  obtain ⟨⟨t, question, reply⟩, answered, receipt⟩ := List.any_eq_true.mp
    (by decide +kernel :
      ((exchange invoiceLibraries invoiceEndpoints 0).play exchangeHost invoiceMoves).history.any
        isReceipt = true)
  obtain ⟨same, ok⟩ := Bool.and_eq_true_iff.mp receipt
  obtain rfl : t = 2 := of_decide_eq_true same
  cases question with
  | respond response =>
    obtain ⟨doc, parsed, -, -, -, invoice, -⟩ := documents_taken invoiceLibraries invoiceEndpoints 0
      invoiceMoves (by decide +kernel) rfl answered (of_decide_eq_true ok)
    obtain ⟨now, unsigned, signed, -, signature, -, found⟩ := invoice rfl
    obtain rfl : sampleInvoice = doc := by
      have read : invoiceLibraries.xmlReadMemory invoiceText = some sampleInvoice := by
        simp [invoiceLibraries]
      unfold extractXmlContent at parsed
      exact Option.some.inj (read.symm.trans parsed)
    have comprador : compradorOf sampleInvoice = "132222222" := by decide +kernel
    have emisor : emisorOf sampleInvoice = "131111111" := by decide +kernel
    have number : encfOf sampleInvoice = "E310000000001" := by decide +kernel
    rw [comprador] at signature found
    rw [emisor, number] at found
    exact ⟨now, unsigned, signed, signature, found⟩
  | _ => exact absurd ok Bool.false_ne_true

end EcfDgii.PeerReceipts
