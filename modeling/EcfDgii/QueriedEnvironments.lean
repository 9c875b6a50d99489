import EcfDgii.ReconcilePasses
import EcfDgii.WrappedOperations

/-!
Which DGII environment a document's status is asked in.

The polling of a read resolves the stored ambiente with `resolveAmbienteEnum`,
which trims, knows aliases and falls back on the configured environment.  The
background pass has a table of its own: no trimming, fewer names, `3` for
Produccion instead of Certificacion, and Certificacion for everything else, also
for a document without an ambiente.  A client it cannot build with a signer of
the issuer it replaces by the configured one.  `environments_agree_iff` says
exactly for which documents the two ask the same environment.
-/

set_option autoImplicit false

namespace EcfDgii.QueriedEnvironments

open EcfDgii.Text EcfDgii.Documents EcfDgii.DgiiReplies EcfDgii.Programs EcfDgii.Engine
open EcfDgii.Transport EcfDgii.Transmission EcfDgii.Submission EcfDgii.StatusPolling
open EcfDgii.StatusUpdates EcfDgii.WrappedOperations EcfDgii.ReconcilePasses

/-! ## The clients -/

/-- The environment the polling resolves for a document. -/
def pollEnvironment (services : Services) (doc : EcfDocument) : AmbienteEnum :=
  resolveAmbienteEnum (doc.ambiente.getD "") services.environment

/-- A client the polling may get for a document, with whatever signer. -/
def PollsThrough (services : Services) (doc : EcfDocument) (client : EcfClient) : Prop :=
  ∃ signer, resolveEcfClient services doc.rncEmisor signer (pollEnvironment services doc) false =
    .ok client

/-- The configured client and the default environment come from one setting. -/
structure Configured (services : Services) (configured : EcfClient) : Prop where
  client : services.ecfClient = .ok configured
  environment : configured.ambiente = services.environment

variable {ext : Externals} {services : Services} {configured client : EcfClient}
  {doc : EcfDocument} {s : String} {amb : AmbienteEnum}

/-- What polling a document may ask of DGII. -/
def PollQueries (services : Services) (doc : EcfDocument) (r : Request) : Prop :=
  ∀ client, Queries client r → PollsThrough services doc client

theorem raise_bind_only {α β : Type} {S : Request → Prop} {x : Except String α}
    {k : α → Procedure β} (rest : ∀ a, x = .ok a → (k a).Only S) :
    (Program.raise x >>= k).Only S := by
  cases x with
  | ok a => exact rest a rfl
  | error e => trivial

/-- Requests that are no queries. -/
theorem pollQueries_of_silent {r : Request} (silent : ∀ client, ¬ Queries client r) :
    PollQueries services doc r :=
  fun client query => absurd query (silent client)

theorem savePolled_only (services : Services) (doc d : EcfDocument) :
    (savePolled d).Only (PollQueries services doc) := by
  have saved : (update d).Only (PollQueries services doc) :=
    ⟨pollQueries_of_silent fun _ => id, fun time => ⟨pollQueries_of_silent fun _ => id,
      fun _ => Program.only_raise _⟩⟩
  have caught : (Program.tryCatch (update d) fun _ => return ()).Only (PollQueries services doc) :=
    saved.tryCatch fun _ => trivial
  exact caught.bind fun _ => Program.only_pure _

/-- Queries through a client of the polling. -/
theorem consultar_polls (polls : PollsThrough services doc client) (consulta : Consulta) :
    (consultar client consulta).Only (PollQueries services doc) :=
  (consultar_queries consulta).mono fun r query other asks => by
    have same : other = client := by
      cases r with
      | getToken => exact asks.symm.trans query
      | invalidateToken => exact asks.symm.trans query
      | get => exact asks.symm.trans query
      | _ => exact query.elim
    exact same ▸ polls

/-- **The polling asks in its environment**: its queries are made through a
client it resolved for it. -/
theorem poll_queries (ext : Externals) (services : Services) (doc : EcfDocument) :
    (poll ext services doc).Only (PollQueries services doc) := by
  have resolves : (resolveSigner services doc.tenantId doc.rncEmisor none false).Only
      (PollQueries services doc) := by
    refine (resolveSigner_resolving ..).mono fun r resolving => pollQueries_of_silent ?_
    intro client query
    cases r with
    | getToken => exact resolving
    | invalidateToken => exact resolving
    | get => exact resolving
    | _ => exact query
  refine resolves.bind fun signer => raise_bind_only fun client resolved => ?_
  have polls : PollsThrough services doc client := ⟨signer, resolved⟩
  have byTrackId : ∀ trackId, (pollByTrackId ext client doc trackId).Only
      (PollQueries services doc) := by
    intro trackId
    refine ((consultar_polls polls _).bind fun _ => Program.only_raise _).bind fun r => ?_
    split
    · exact savePolled_only services doc _
    · trivial
  have byENcf : (pollByENcf ext client doc).Only (PollQueries services doc) := by
    refine ((consultar_polls polls _).bind fun _ => Program.only_pure _).bind fun status => ?_
    refine .ite (fun _ => trivial) fun _ => Program.Only.bind ?_ fun d =>
      savePolled_only services doc _
    refine (attempt_only ((consultar_polls polls _).bind fun _ => Program.only_pure _)).bind
      fun found => ?_
    split
    · exact .ite (fun _ => trivial) fun _ => trivial
    · trivial
  split
  · exact .ite (fun _ => byTrackId _) fun _ => .ite (fun _ => byENcf) fun _ => trivial
  · exact .ite (fun _ => byENcf) fun _ => trivial

/-! ## Names -/

/-- The names of PreCertificacion, in lower case. -/
def PreName (lower : String) : Prop :=
  lower = "test" ∨ lower = "testecf" ∨ contains lower "precert" = true ∨ lower = "1"

/-- The names of Certificacion. -/
def CertName (lower : String) : Prop :=
  lower = "cert" ∨ lower = "certecf" ∨ contains lower "certific" = true ∨
    contains lower "homolog" = true ∨ lower = "3"

/-- The names of Produccion. -/
def ProdName (lower : String) : Prop :=
  lower = "prod" ∨ lower = "prd" ∨ lower = "production" ∨ lower = "ecf" ∨
    contains lower "producc" = true ∨ lower = "2"

/-- A stored text names an environment: in any case, with blanks around; a name
of two environments is one of the first. -/
def Names (amb : AmbienteEnum) (s : String) : Prop :=
  let lower := trim (tolower s)
  match amb with
  | .preCertificacion => PreName lower
  | .certificacion => ¬ PreName lower ∧ CertName lower
  | .produccion => ¬ PreName lower ∧ ¬ CertName lower ∧ ProdName lower

/-- `tryResolveAmbienteEnum` knows these names. -/
theorem tryResolve_eq_some_iff : tryResolveAmbienteEnum s = some amb ↔ Names amb s := by
  by_cases empty : s = ""
  · subst empty
    cases amb <;> simp [tryResolveAmbienteEnum, Names, PreName, CertName, ProdName] <;> decide
  · unfold tryResolveAmbienteEnum Names
    dsimp only
    rw [if_neg empty]
    generalize trim (tolower s) = lower
    by_cases pre : PreName lower
    · rw [if_pos (by simpa [PreName, or_assoc] using pre)]
      cases amb <;> simp [pre]
    · rw [if_neg (by simpa [PreName, or_assoc] using pre)]
      by_cases cert : CertName lower
      · rw [if_pos (by simpa [CertName, or_assoc] using cert)]
        cases amb <;> simp [pre, cert]
      · rw [if_neg (by simpa [CertName, or_assoc] using cert)]
        by_cases prod : ProdName lower
        · rw [if_pos (by simpa [ProdName, or_assoc] using prod)]
          cases amb <;> simp [pre, cert, prod]
        · rw [if_neg (by simpa [ProdName, or_assoc] using prod)]
          cases amb <;> simp [pre, cert, prod]

/-- A text names one environment. -/
theorem Names.unique {other : AmbienteEnum} (h : Names amb s) (h' : Names other s) :
    amb = other :=
  Option.some.inj ((tryResolve_eq_some_iff.mpr h).symm.trans (tryResolve_eq_some_iff.mpr h'))

theorem pollEnvironment_named (stored : doc.ambiente = some s) (named : Names amb s) :
    pollEnvironment services doc = amb := by
  rw [pollEnvironment, stored, Option.getD_some, resolveAmbienteEnum,
    tryResolve_eq_some_iff.mpr named, Option.getD_some]

theorem pollEnvironment_null (null : doc.ambiente = none) :
    pollEnvironment services doc = services.environment := by
  rw [pollEnvironment, null]
  rfl

/-! ## The table of the background pass -/

/-- The texts of the background pass that mean what they mean elsewhere, without
blanks around them. -/
def plainNames : List (String × AmbienteEnum) :=
  [("precertificacion", .preCertificacion), ("testecf", .preCertificacion),
    ("test", .preCertificacion), ("1", .preCertificacion), ("produccion", .produccion),
    ("ecf", .produccion), ("prod", .produccion)]

/-- A text the two tables read alike: one of these names, or a name of
Certificacion that is not just `3`. -/
def ReadAlike (s : String) : Prop :=
  tolower s ∈ plainNames.map Prod.fst ∨ Names .certificacion s ∧ tolower s ≠ "3"

/-- Both tables look at the text in lower case. -/
theorem reconcilerEnvironment_lower {t : String} (same : tolower s = tolower t) :
    reconcilerEnvironment (some s) = reconcilerEnvironment (some t) := by
  unfold reconcilerEnvironment
  dsimp only
  rw [same]

theorem names_lower {t : String} (same : tolower s = tolower t) : Names amb s ↔ Names amb t := by
  unfold Names
  rw [same]

theorem plainNames_known : ∀ name ∈ plainNames, tolower name.1 = name.1 ∧
    tryResolveAmbienteEnum name.1 = some name.2 ∧
    reconcilerEnvironment (some name.1) = name.2 := by decide

theorem reconcilerEnvironment_other (unknown : tolower s ∉ plainNames.map Prod.fst)
    (not_three : tolower s ≠ "3") : reconcilerEnvironment (some s) = .certificacion := by
  have outside : ∀ name ∈ plainNames.map Prod.fst, tolower s ≠ name := fun name member same =>
    unknown (same ▸ member)
  unfold reconcilerEnvironment
  dsimp only
  rw [if_neg, if_neg]
  · rintro (same | same | same | same)
    all_goals exact outside _ (by decide) same
  · rintro (same | same | same | same)
    · exact outside _ (by decide) same
    · exact outside _ (by decide) same
    · exact outside _ (by decide) same
    · exact not_three same

/-- **The two tables** read a name alike. -/
theorem reads_alike_iff (named : Names amb s) :
    reconcilerEnvironment (some s) = amb ↔ ReadAlike s := by
  by_cases plain : tolower s ∈ plainNames.map Prod.fst
  · obtain ⟨name, member, same⟩ := List.mem_map.mp plain
    obtain ⟨lower, resolved, table⟩ := plainNames_known name member
    have alike : tolower s = tolower name.1 := same.symm.trans lower.symm
    have other : Names name.2 s := (names_lower alike).mpr (tryResolve_eq_some_iff.mp resolved)
    rw [reconcilerEnvironment_lower alike, table, named.unique other]
    exact iff_of_true rfl (.inl plain)
  · by_cases three : tolower s = "3"
    · have alike : tolower s = tolower "3" := three
      have cert : Names .certificacion s :=
        (names_lower alike).mpr (tryResolve_eq_some_iff.mp (by decide))
      have table : reconcilerEnvironment (some "3") = .produccion := by decide
      rw [reconcilerEnvironment_lower alike, table, named.unique cert]
      refine iff_of_false (by decide) ?_
      rintro (known | ⟨-, other⟩)
      · exact plain known
      · exact other three
    · rw [reconcilerEnvironment_other plain three]
      constructor
      · rintro rfl
        exact .inr ⟨named, three⟩
      · rintro (known | ⟨cert, -⟩)
        · exact absurd known plain
        · exact cert.unique named

/-! ## The same environment -/

variable {signer : String → Except String (Option Signer)}

/-- **The same environment.** The background pass asks about the document through
a client for the environment of every client the polling may ask through. -/
def SameEnvironment (services : Services) (signer : String → Except String (Option Signer))
    (configured : EcfClient) (doc : EcfDocument) : Prop :=
  ∀ client, PollsThrough services doc client →
    (rowClient services signer configured doc).ambiente = client.ambiente

/-- The ambiente is none, or names an environment. -/
def Stored (doc : EcfDocument) : Prop :=
  ∀ s, doc.ambiente = some s → (tryResolveAmbienteEnum s).isSome

/-- When the two ask alike: about a document of no issuer; with a signer of the
issuer, when its ambiente is read alike, or is none and Certificacion is
configured; without one, when its ambiente is none or names the configured
environment. -/
def AskedAlike (services : Services) (signer : String → Except String (Option Signer))
    (doc : EcfDocument) : Prop :=
  doc.rncEmisor = "" ∨
    if services.hasTenantSignerResolver = true ∧ (signer doc.rncEmisor).isOk = true then
      match doc.ambiente with
      | none => services.environment = .certificacion
      | some s => ReadAlike s
    else ∀ s, doc.ambiente = some s → Names services.environment s

/-- The polling's clients are for the environment it resolved. -/
theorem PollsThrough.environment (wired : Configured services configured)
    (polls : PollsThrough services doc client) : client.ambiente = pollEnvironment services doc := by
  obtain ⟨signer, resolved⟩ := polls
  unfold resolveEcfClient at resolved
  split at resolved
  · next own =>
    have same : pollEnvironment services doc = services.environment :=
      (own.resolve_left Bool.false_ne_true).2.2
    obtain rfl : configured = client := Except.ok.inj (wired.client.symm.trans resolved)
    rw [same, wired.environment]
  · split at resolved
    · exact absurd resolved nofun
    · obtain rfl := Except.ok.inj resolved
      rfl

/-- About a document of an issuer the polling does ask. -/
theorem polls_exists (wired : Configured services configured) (issuer : doc.rncEmisor ≠ "") :
    ∃ client, PollsThrough services doc client := by
  by_cases own : services.signer = services.signer ∧ doc.rncEmisor = services.emisorRnc ∧
      pollEnvironment services doc = services.environment
  · refine ⟨configured, services.signer, ?_⟩
    rw [resolveEcfClient, if_pos (.inr own), wired.client]
  · refine ⟨⟨doc.rncEmisor, pollEnvironment services doc, services.validateSchemasLocal,
      services.signer⟩, services.signer, ?_⟩
    rw [resolveEcfClient, if_neg, if_neg issuer]
    rintro (fallback | same)
    · exact absurd fallback Bool.false_ne_true
    · exact own same

/-- About a document of no issuer it asks in the configured environment, if at
all. -/
theorem polls_blank (blank : doc.rncEmisor = "") (polls : PollsThrough services doc client) :
    services.ecfClient = .ok client := by
  obtain ⟨signer, resolved⟩ := polls
  unfold resolveEcfClient at resolved
  split at resolved
  · exact resolved
  · exact absurd resolved nofun

/-- The environment of the background pass. -/
theorem rowClient_environment (wired : Configured services configured)
    (issuer : doc.rncEmisor ≠ "") :
    (rowClient services signer configured doc).ambiente =
      if services.hasTenantSignerResolver = true ∧ (signer doc.rncEmisor).isOk = true then
        reconcilerEnvironment doc.ambiente
      else services.environment := by
  unfold rowClient
  by_cases resolver : services.hasTenantSignerResolver = true
  · rw [if_pos ⟨resolver, issuer⟩]
    cases signer doc.rncEmisor with
    | ok resolved => rw [if_pos ⟨resolver, rfl⟩]
    | error e => rw [if_neg fun both => absurd both.2 Bool.false_ne_true, wired.environment]
  · rw [if_neg fun both => resolver both.1, if_neg fun both => resolver both.1, wired.environment]

/-- **When the pollers agree.** The background pass and the polling of a read ask
about a document in the same environment exactly when they are asked alike. -/
theorem environments_agree_iff (services : Services) (configured : EcfClient)
    (wired : Configured services configured) (signer : String → Except String (Option Signer))
    (doc : EcfDocument) (stored : Stored doc) :
    SameEnvironment services signer configured doc ↔ AskedAlike services signer doc := by
  by_cases issuer : doc.rncEmisor = ""
  · refine iff_of_true (fun client polls => ?_) (.inl issuer)
    have same : configured = client :=
      Except.ok.inj (wired.client.symm.trans (polls_blank issuer polls))
    have own : rowClient services signer configured doc = configured :=
      if_neg fun both => both.2 issuer
    rw [own, same]
  · have asked : SameEnvironment services signer configured doc ↔
        (rowClient services signer configured doc).ambiente = pollEnvironment services doc := by
      constructor
      · intro same
        obtain ⟨client, polls⟩ := polls_exists wired issuer
        rw [same client polls, polls.environment wired]
      · intro same client polls
        rw [same, polls.environment wired]
    rw [asked, rowClient_environment wired issuer, AskedAlike, or_iff_right issuer]
    by_cases signed : services.hasTenantSignerResolver = true ∧
        (signer doc.rncEmisor).isOk = true
    · rw [if_pos signed, if_pos signed]
      cases ambiente : doc.ambiente with
      | none =>
        rw [pollEnvironment_null ambiente]
        exact eq_comm
      | some s =>
        obtain ⟨amb, known⟩ := Option.isSome_iff_exists.mp (stored s ambiente)
        have named : Names amb s := tryResolve_eq_some_iff.mp known
        rw [pollEnvironment_named ambiente named]
        exact reads_alike_iff named
    · rw [if_neg signed, if_neg signed]
      cases ambiente : doc.ambiente with
      | none => exact iff_of_true (pollEnvironment_null ambiente).symm nofun
      | some s =>
        obtain ⟨amb, known⟩ := Option.isSome_iff_exists.mp (stored s ambiente)
        have named : Names amb s := tryResolve_eq_some_iff.mp known
        rw [pollEnvironment_named ambiente named]
        constructor
        · rintro rfl other same
          exact Option.some.inj same ▸ named
        · intro alike
          exact (alike s rfl).unique named

/-! ## A small deployment -/

/-- The configured client. -/
def sampleClient : EcfClient :=
  { rncEmisor := "101672919", ambiente := .certificacion, signer := ⟨"default", false⟩ }

/-- A deployment for Certificacion. -/
def sampleServices : Services :=
  { signer := ⟨"default", false⟩, ecfClient := .ok sampleClient, environment := .certificacion
    hasTenantSignerResolver := true }

/-- A document of another issuer. -/
def sampleDocument (ambiente : Option String) : EcfDocument :=
  { id := "1", eNcf := "E310000000001", rncEmisor := "131880738", sourceTxnId := "T1"
    editSequence := "1", ambiente := ambiente }

/-- Every issuer has a signer. -/
def sampleSigner (_ : String) : Except String (Option Signer) := .ok none

theorem sample_configured : Configured sampleServices sampleClient := ⟨rfl, rfl⟩

/-- A document in Produccion is asked about there by both. -/
theorem environments_agree_iff_sample :
    SameEnvironment sampleServices sampleSigner sampleClient (sampleDocument (some "Produccion")) :=
  (environments_agree_iff sampleServices sampleClient sample_configured sampleSigner
    (sampleDocument (some "Produccion")) (by rintro s ⟨⟩; decide)).mpr
      (.inr (.inl (by decide)))

/-- A document stored with `3` is asked about in Certificacion by the polling, and
in Produccion by the background pass. -/
theorem three_asked_apart :
    Stored (sampleDocument (some "3")) ∧
      ¬ SameEnvironment sampleServices sampleSigner sampleClient (sampleDocument (some "3")) := by
  refine ⟨by rintro s ⟨⟩; decide, fun same => ?_⟩
  have polls : PollsThrough sampleServices (sampleDocument (some "3"))
      ⟨"131880738", .certificacion, false, ⟨"default", false⟩⟩ := ⟨⟨"default", false⟩, by decide⟩
  exact absurd (same _ polls) (by decide)

end EcfDgii.QueriedEnvironments
