import EcfDgii.LinearizableCustomers

/-!
A customer from its creation to its deletion, for clients that go by what they
were answered.

Whoever begins after a creation was answered finds the customer, unless a request
of an administrator has deleted it; and whoever begins after a deletion was
answered finds it no more.  Other requests may run in between, and at the same
time.
-/

set_option autoImplicit false

namespace EcfDgii.CustomerLifetimes

open EcfDgii.Text EcfDgii.Programs EcfDgii.Execution EcfDgii.Linearizability EcfDgii.Customers
open EcfDgii.LinearizableCustomers

variable {requests : ℕ → HttpRequest} {first rest : List (Move Input)} {t u : ℕ} {id : String}
  {a answer : Answer} {route : Route} {b b' : Book}

/-- The answer has the customer. -/
def Has (id : String) (route : Route) : Answer → Prop
  | .customers dtos => uuid id ∈ dtos.map (·.id)
  | .customer dto => dto.id = uuid id
  | .created id' => uuid id' = uuid id
  | .noContent => ∃ id' body, route = .update id' body ∧ uuid id' = uuid id
  | _ => False

/-- The answer lacks the customer. -/
def Lacks (id : String) (route : Route) : Answer → Prop
  | .customers dtos => uuid id ∉ dtos.map (·.id)
  | .notFound _ => ∃ id', Names id' route ∧ uuid id' = uuid id
  | _ => False

theorem proper_of_has (has : Has id route a) : Proper a := by
  cases a <;> first | exact trivial | exact has.elim

theorem proper_of_lacks (lacks : Lacks id route a) : Proper a := by
  cases a <;> first | exact trivial | exact lacks.elim

theorem names_unique {id' : String} (names : Names id route) (names' : Names id' route) :
    id = id' := by
  cases route <;> first | exact names.elim | exact names.symm.trans names'

/-- The customers that are listed. -/
theorem listed_iff {dtos : List CustomerDto} (lists : Lists b dtos) :
    id ∈ dtos.map (·.id) ↔ ∃ d, b id = .live d := by
  obtain ⟨entries, rfl, -, live, -⟩ := lists
  rw [List.map_map]
  constructor
  · intro member
    obtain ⟨⟨id, d⟩, here, rfl⟩ := List.mem_map.mp member
    exact ⟨d, (live _ _).mp here⟩
  · rintro ⟨d, here⟩
    exact List.mem_map.mpr ⟨(id, d), (live _ _).mpr here, rfl⟩

/-- An answer has no customer that is gone. -/
theorem not_gone_of_has (serves : Serves route b a b') (has : Has id route a) :
    b (uuid id) ≠ .gone := by
  intro gone
  cases serves with
  | listed asks lists =>
    obtain ⟨d, live⟩ := (listed_iff lists).mp has
    rw [gone] at live
    cases live
  | shown asks live =>
    rw [show uuid _ = uuid id from has, gone] at live
    cases live
  | missing asks other => exact has
  | created asks brings new =>
    rw [show uuid _ = uuid id from has, gone] at new
    cases new
  | updated asks brings live =>
    obtain ⟨id', body', asks', same⟩ := has
    obtain ⟨rfl, -⟩ := Route.update.inj (asks.symm.trans asks')
    rw [same, gone] at live
    cases live
  | removed asks live =>
    obtain ⟨id', body', asks', -⟩ := has
    cases asks.symm.trans asks'
  | removedAlready asks _ =>
    obtain ⟨id', body', asks', -⟩ := has
    cases asks.symm.trans asks'

/-- Nor does it lack one that is there. -/
theorem not_live_of_lacks (serves : Serves route b a b') (lacks : Lacks id route a) (d : Details) :
    b (uuid id) ≠ .live d := by
  intro live
  cases serves with
  | listed asks lists => exact lacks ((listed_iff lists).mpr ⟨d, live⟩)
  | missing asks other =>
    obtain ⟨id', names, same⟩ := lacks
    refine other d ?_
    rwa [names_unique asks names, same]
  | _ => exact lacks

/-- A customer stays, unless it is deleted. -/
theorem stays_live (serves : Serves route b a b') (live : ∃ d, b (uuid id) = .live d) :
    (∃ d, b' (uuid id) = .live d) ∨ ∃ id', route = .remove id' ∧ uuid id' = uuid id := by
  obtain ⟨d, live⟩ := live
  cases serves with
  | @created _ cmd id' createdAt asks brings new =>
    have other : uuid id ≠ uuid id' := fun same => by rw [← same, live] at new; cases new
    exact .inl ⟨d, by rw [Function.update_of_ne other, live]⟩
  | @updated id' _ cmd d' asks brings _ =>
    by_cases same : uuid id = uuid id'
    · exact .inl ⟨_, by rw [same, Function.update_self]⟩
    · exact .inl ⟨d, by rw [Function.update_of_ne same, live]⟩
  | @removed id' _ asks _ =>
    by_cases same : uuid id = uuid id'
    · exact .inr ⟨id', asks, same.symm⟩
    · exact .inl ⟨d, by rw [Function.update_of_ne same, live]⟩
  | _ => exact .inl ⟨d, live⟩

/-- The requests between an answer and a request that began after it. -/
theorem exists_between
    (returned : (((serving requests).play customerHost first).thread t).result = some a)
    (proper : Proper a) (later : (((serving requests).play customerHost first).thread u).log = [])
    (answered : (((serving requests).play customerHost (first ++ rest)).thread u).result =
      some answer) (proper' : Proper answer) :
    ∃ entries before left found after, Serves (requests t).route before a left ∧
      Replays (fun req : HttpRequest => Serves req.route) requests left entries found ∧
      Serves (requests u).route found answer after ∧
      ∀ entry ∈ entries, Authorised (requests entry.1)
        (((serving requests).play customerHost (first ++ rest)).thread entry.1).log := by
  obtain ⟨order, linear, ledgers⟩ := exists_ledgers requests
  obtain ⟨early, between, late, split⟩ := linear.before returned proper later
    (linear.returned _ _ _ answered proper')
  have legal := linear.legal (first ++ rest)
  rw [split, List.append_assoc, List.cons_append] at legal
  obtain ⟨before, left, -, removed, onward⟩ := legal.cut
  obtain ⟨found, after, replays, next, -⟩ := onward.cut
  refine ⟨between, before, left, found, after, removed, replays, next, fun entry member => ?_⟩
  refine (ledgers (first ++ rest)).authorised entry ?_
  rw [split]
  simp [member]

/-- A customer's id. -/
def ana : String := "00000000-0000-4000-8000-00000000000a"

/-- An administrator creates a customer, deletes it, and asks for all customers. -/
def anaRequests (t : ℕ) : HttpRequest where
  authorization := "Bearer token"
  route :=
    match t with
    | 0 => .create (some (.object [("name", .string "Ana"), ("email", .string "ana@casa.do"),
        ("rnc", .string "101672919")]))
    | 1 => .remove ana
    | _ => .getAll

def adminInput : Input where
  verified := .ok fun name => .ok (if name = "role" then some "Admin" else none)
  drawn := ana

def runAna : List (Move Input) := List.replicate 5 (.step 0 adminInput)
def runRemoval : List (Move Input) := List.replicate 4 (.step 1 adminInput)
def runListing : List (Move Input) := List.replicate 3 (.step 2 adminInput)

/-- **A deletion.** Once it has been answered 204, no request that begins later
is shown the customer, finds it listed, changes it or creates it again. -/
theorem removed_for_good (requests : ℕ → HttpRequest) (first rest : List (Move Input))
    (removes : (requests t).route = .remove id)
    (returned : (((serving requests).play customerHost first).thread t).result = some .noContent)
    (later : (((serving requests).play customerHost first).thread u).log = [])
    (answered : (((serving requests).play customerHost (first ++ rest)).thread u).result =
      some answer) : ¬ Has id (requests u).route answer := by
  intro has
  obtain ⟨entries, before, left, found, after, removed, replays, next, -⟩ :=
    exists_between returned trivial later answered (proper_of_has has)
  exact not_gone_of_has next has
    (replays.keeps (gone_of_removed removed removes) fun _ _ _ _ serves => stays_gone serves)

theorem removed_for_good_ana : ¬ Has ana .getAll (.customers []) :=
  removed_for_good anaRequests (runAna ++ runRemoval) runListing (t := 1) (u := 2) rfl rfl rfl rfl

/-- **A creation.** Once it has been answered 201, a request that begins later
finds the customer missing only if an administrator has asked to delete it. -/
theorem created_until_removed (requests : ℕ → HttpRequest) (first rest : List (Move Input))
    (returned : (((serving requests).play customerHost first).thread t).result =
      some (.created id))
    (later : (((serving requests).play customerHost first).thread u).log = [])
    (answered : (((serving requests).play customerHost (first ++ rest)).thread u).result =
      some answer) (lacks : Lacks id (requests u).route answer) :
    ∃ v id', (requests v).route = .remove id' ∧ uuid id' = uuid id ∧
      ∃ claims attributes, (⟨.verifyToken (dropFirst 7 (requests v).authorization),
          (.ok claims : Except String Claims)⟩ : Event CustomerApi) ∈
          (((serving requests).play customerHost (first ++ rest)).thread v).log ∧
        attributesOf claims = .ok attributes ∧ attributes.role = "Admin" := by
  obtain ⟨entries, before, left, found, after, created, replays, next, authorised⟩ :=
    exists_between returned trivial later answered (proper_of_lacks lacks)
  have live : ∃ d, left (uuid id) = .live d := by
    cases created with
    | created asks brings new => exact ⟨_, Function.update_self ..⟩
  by_contra none
  have still : ∃ d, found (uuid id) = .live d := by
    refine replays.keeps (P := fun b => ∃ d, b (uuid id) = .live d) live
      fun entry member _ _ serves live => ?_
    rcases stays_live serves live with still | ⟨id', removes, same⟩
    · exact still
    · obtain ⟨claims, attributes, verified, read, filtered⟩ := authorised entry member
      refine absurd ⟨entry.1, id', removes, same, claims, attributes, verified, read, ?_⟩ none
      rw [removes] at filtered
      by_contra other
      simp [adminRoleFilter, other] at filtered
  obtain ⟨d, still⟩ := still
  exact not_live_of_lacks next lacks d still

theorem created_until_removed_ana : ∃ v id', (anaRequests v).route = .remove id' ∧
    uuid id' = uuid ana ∧ ∃ claims attributes,
      (⟨.verifyToken (dropFirst 7 (anaRequests v).authorization),
        (.ok claims : Except String Claims)⟩ : Event CustomerApi) ∈
        (((serving anaRequests).play customerHost
          (runAna ++ (runRemoval ++ runListing))).thread v).log ∧
      attributesOf claims = .ok attributes ∧ attributes.role = "Admin" :=
  created_until_removed anaRequests runAna (runRemoval ++ runListing) (t := 0) (u := 2) rfl rfl rfl
    (show uuid ana ∉ ([] : List String) from List.not_mem_nil)

end EcfDgii.CustomerLifetimes
