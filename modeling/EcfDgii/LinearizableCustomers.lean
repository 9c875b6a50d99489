import EcfDgii.Customers
import EcfDgii.Linearizability
import Mathlib.Data.List.Dedup

/-!
Customers under concurrent requests.

`Serves` is what a request may do at once: to a `Book` in which an id is unused,
names a customer, or is gone for good.  Requests take several steps, and between
the query of an update and its transaction the customer may be deleted by another
request; the update then counts as made just before the deletion, which is why a
deletion enters the updates it has overtaken into the order before itself.  Two
deletions that overlap are both answered 204, and `Serves` allows for that; a
deletion that begins after another has taken effect is not one of them, since it
has to have found the customer (`not_removed_again`).  Everything else is answered
as if one request ran at a time (`customers_linearizable`).
-/

set_option autoImplicit false

namespace EcfDgii.LinearizableCustomers

open EcfDgii.Text EcfDgii.DgiiReplies EcfDgii.Programs EcfDgii.Execution EcfDgii.Linearizability
open EcfDgii.Customers

/-! ## Books -/

structure Details where
  command : CustomerCommand
  createdAt : ℤ

/-- What an id stands for. -/
inductive Status
  | absent
  | live (details : Details)
  | gone

abbrev Book := String → Status

def Details.dto (id : String) (d : Details) : CustomerDto :=
  ⟨id, d.command.name, d.command.email, d.command.rnc⟩

/-- The customers of a book, in the order of their creation. -/
def Lists (b : Book) (dtos : List CustomerDto) : Prop :=
  ∃ entries : List (String × Details), dtos = entries.map (fun e => e.2.dto e.1) ∧
    (entries.map Prod.fst).Nodup ∧ (∀ id d, (id, d) ∈ entries ↔ b id = .live d) ∧
    entries.Pairwise fun e f => e.2.createdAt ≤ f.2.createdAt

/-- The route has a body with a valid command. -/
inductive Brings : Route → CustomerCommand → Prop
  | create {fields} (strings : fieldError fields = none)
    (valid : (customerCommand fields).validate = []) :
    Brings (.create (some (.object fields))) (customerCommand fields)
  | update {id fields} (same : idError id fields = none) (strings : fieldError fields = none)
    (valid : (customerCommand fields).validate = []) :
    Brings (.update id (some (.object fields))) (customerCommand fields)

/-- The route is about one customer. -/
def Names (id : String) : Route → Prop
  | .getById id' => id' = id
  | .update id' _ => id' = id
  | .remove id' => id' = id
  | _ => False

/-- **What a request may do at once.** -/
inductive Serves (route : Route) : Book → Answer → Book → Prop
  | listed {b dtos} (asks : route = .getAll) (lists : Lists b dtos) :
    Serves route b (.customers dtos) b
  | shown {b id d} (asks : route = .getById id) (live : b (uuid id) = .live d) :
    Serves route b (.customer (d.dto (uuid id))) b
  | missing {b id} (asks : Names id route) (other : ∀ d, b (uuid id) ≠ .live d) :
    Serves route b (.notFound "Customer not found.") b
  | created {b body cmd id createdAt} (asks : route = .create body) (brings : Brings route cmd)
    (new : b (uuid id) = .absent) :
    Serves route b (.created id) (Function.update b (uuid id) (.live ⟨cmd, createdAt⟩))
  | updated {b id body cmd d} (asks : route = .update id body) (brings : Brings route cmd)
    (live : b (uuid id) = .live d) :
    Serves route b .noContent (Function.update b (uuid id) (.live ⟨cmd, d.createdAt⟩))
  | removed {b id d} (asks : route = .remove id) (live : b (uuid id) = .live d) :
    Serves route b .noContent (Function.update b (uuid id) .gone)
  | removedAlready {b id} (asks : route = .remove id) (gone : b (uuid id) = .gone) :
    Serves route b .noContent b

/-- An answer about customers. -/
def Proper : Answer → Prop
  | .customers _ | .customer _ | .created _ | .noContent | .notFound _ => True
  | _ => False

/-! ## What a request asks -/

/-- A query or a transaction. -/
def IsWork : Request → Prop
  | .selectById _ | .selectAll | .saveChanges _ => True
  | _ => False

def IsSave : Request → Prop
  | .saveChanges _ => True
  | _ => False

/-- A query for one customer, and what it found. -/
def selected (id : String) (found : Option Customer) : Event CustomerApi :=
  ⟨.selectById id, (.ok found : Except String (Option Customer))⟩

/-- What an event settles about the answer of its request. -/
def settles (route : Route) : Event CustomerApi → Option Answer
  | ⟨.selectAll, reply⟩ =>
    match (reply : Except String (List Customer)) with
    | .ok rows => some (.customers (rows.map toDto))
    | .error _ => none
  | ⟨.selectById _, reply⟩ =>
    match (reply : Except String (Option Customer)), route with
    | .ok none, _ => some (.notFound "Customer not found.")
    | .ok (some row), .getById _ => some (.customer (toDto row))
    | _, _ => none
  | ⟨.saveChanges write, reply⟩ =>
    match (reply : Except String Unit), write with
    | .ok _, .insert row => some (.created row.id)
    | .ok _, _ => some .noContent
    | .error _, _ => none
  | _ => none

variable {req : HttpRequest} {log : List (Event CustomerApi)}

/-- The token of the request was verified, and lets it pass its filters. -/
def Authorised (req : HttpRequest) (log : List (Event CustomerApi)) : Prop :=
  ∃ claims attributes,
    (⟨.verifyToken (dropFirst 7 req.authorization), (.ok claims : Except String Claims)⟩ :
      Event CustomerApi) ∈ log ∧
    attributesOf claims = .ok attributes ∧ adminRoleFilter req.route attributes = none

theorem Authorised.append (h : Authorised req log) (more : List (Event CustomerApi)) :
    Authorised req (log ++ more) := by
  obtain ⟨claims, attributes, verified, rest⟩ := h
  exact ⟨claims, attributes, List.mem_append_left _ verified, rest⟩

/-- Nothing has been queried or written. -/
def Fresh (log : List (Event CustomerApi)) : Prop := ∀ e ∈ log, ¬ IsWork e.request

/-- Nothing has been written. -/
def Unsaved (log : List (Event CustomerApi)) : Prop := ∀ e ∈ log, ¬ IsSave e.request

/-- The statement a request may make, by what it has seen. -/
def Permitted (route : Route) (log : List (Event CustomerApi)) : Write → Prop
  | .insert row => ∃ body, route = .create body ∧ Brings route ⟨row.name, row.email, row.rnc⟩ ∧
      row.isDeleted = false ∧ Fresh log
  | .update id cmd => ∃ given body row, route = .update given body ∧ Brings route cmd ∧
      selected given (some row) ∈ log ∧ row.id = id
  | .remove id => ∃ given row, route = .remove given ∧ selected given (some row) ∈ log ∧
      row.id = id

/-- A deletion has seen its customer. -/
theorem Permitted.saw {route : Route} {write : Write} {given : String}
    (permitted : Permitted route log write) (removes : route = .remove given) :
    ∃ row, selected given (some row) ∈ log := by
  subst removes
  cases write with
  | insert row =>
    obtain ⟨_, other, -⟩ := permitted
    cases other
  | update id cmd =>
    obtain ⟨_, _, _, other, -⟩ := permitted
    cases other
  | remove id =>
    obtain ⟨_, row, same, seen, -⟩ := permitted
    cases same
    exact ⟨row, seen⟩

/-- What a request asks. -/
def CustomerAsks (req : HttpRequest) (log : List (Event CustomerApi)) : Request → Prop
  | .verifyToken token => token = dropFirst 7 req.authorization
  | .selectAll => Authorised req log ∧ req.route = .getAll ∧ Fresh log
  | .selectById id => Authorised req log ∧ Names id req.route ∧ Fresh log ∧
      ∀ id' body, req.route = .update id' body → ∃ cmd, Brings req.route cmd
  | .saveChanges write => Authorised req log ∧ Unsaved log ∧ Permitted req.route log write
  | _ => Authorised req log

/-- A request is answered what an event settled, with an error, or at once. -/
def CustomerShows (req : HttpRequest) (log : List (Event CustomerApi)) (a : Answer) : Prop :=
  (∃ e ∈ log, settles req.route e = some a) ∨ a = .internalError ∨ Fresh log ∧ ¬ Proper a

/-- A part of a request: its answer is settled, or there is none. -/
abbrev Answers (req : HttpRequest) (log : List (Event CustomerApi)) (p : Procedure Answer) : Prop :=
  p.Follows (.logging (CustomerAsks req)) (CustomerShows req) (fun _ _ => True) log

theorem Fresh.append (h : Fresh log) {r : Request} {x : r.Reply} (quiet : ¬ IsWork r) :
    Fresh (log ++ [⟨r, x⟩]) := by
  intro e member
  rcases List.mem_append.mp member with before | new
  · exact h e before
  · rw [List.mem_singleton.mp new]
    exact quiet

theorem Fresh.unsaved (h : Fresh log) : Unsaved log := by
  intro e member save
  refine h e member ?_
  obtain ⟨r, x⟩ := e
  cases r <;> first | exact trivial | exact save.elim

theorem Unsaved.append (h : Unsaved log) {r : Request} {x : r.Reply} (quiet : ¬ IsSave r) :
    Unsaved (log ++ [⟨r, x⟩]) := by
  intro e member
  rcases List.mem_append.mp member with before | new
  · exact h e before
  · rw [List.mem_singleton.mp new]
    exact quiet

/-- The last event settles the answer. -/
theorem shows_last {e : Event CustomerApi} {a : Answer} (settled : settles req.route e = some a) :
    CustomerShows req (log ++ [e]) a :=
  .inl ⟨e, List.mem_append_right _ List.mem_cons_self, settled⟩

/-- The connection comes first. -/
theorem answers_connect {rest : Procedure Answer} (may : Authorised req log) (fresh : Fresh log)
    (follows : ∀ log, Authorised req log → Fresh log → Answers req log rest) :
    Answers req log (connect >>= fun _ => rest) := by
  refine (follows_logging_bind _ _).mpr ⟨may, fun opened => ?_⟩
  refine (Program.follows_raise_bind _ _).mpr ⟨fun _ _ => ?_, fun _ _ => trivial⟩
  exact follows _ (may.append _) (fresh.append id)

/-- The query for the customer of the route. -/
theorem answers_getById {id : String} {rest : Option Customer → Procedure Answer}
    (may : Authorised req log) (fresh : Fresh log) (names : Names id req.route)
    (brings : ∀ id' body, req.route = .update id' body → ∃ cmd, Brings req.route cmd)
    (follows : ∀ found, Answers req (log ++ [selected id found]) (rest found)) :
    Answers req log (getById id >>= rest) := by
  refine (follows_logging_bind _ _).mpr ⟨⟨may, names, fresh, brings⟩, fun found => ?_⟩
  refine (Program.follows_raise_bind _ _).mpr ⟨fun row ok => ?_, fun _ _ => trivial⟩
  subst ok
  exact follows row

/-- The transaction at the end. -/
theorem answers_saveChanges {write : Write} {a : Answer} (may : Authorised req log)
    (unsaved : Unsaved log) (permitted : Permitted req.route log write)
    (settled : settles req.route ⟨.saveChanges write, (.ok () : Except String Unit)⟩ = some a) :
    Answers req log (saveChanges write >>= fun _ => return a) := by
  refine (follows_logging_bind _ _).mpr ⟨⟨may, unsaved, permitted⟩, fun saved => ?_⟩
  refine (Program.follows_raise_bind _ _).mpr ⟨fun _ ok => ?_, fun _ _ => trivial⟩
  subst ok
  exact shows_last settled

/-- A request that has asked for nothing answers at once. -/
theorem answers_refused {a : Answer} (fresh : Fresh log) (refused : ¬ Proper a) :
    Answers req log (return a) := .inr (.inr ⟨fresh, refused⟩)

theorem answers_withUuid {id : String} {rest : Procedure Answer} (fresh : Fresh log)
    (follows : Answers req log rest) : Answers req log (withUuid id rest) :=
  .ite (fun _ => follows) fun _ => answers_refused fresh fun h => h

theorem getAll_follows (asks : req.route = .getAll) (may : Authorised req log)
    (fresh : Fresh log) : Answers req log (connect >>= fun _ => handleGetAll) := by
  refine answers_connect may fresh fun log may fresh => ?_
  refine (follows_logging_bind _ _).mpr ⟨⟨may, asks, fresh⟩, fun rows => ?_⟩
  refine (Program.follows_raise_bind _ _).mpr ⟨fun listed ok => ?_, fun _ _ => trivial⟩
  subst ok
  exact shows_last rfl

theorem getById_follows {id : String} (asks : req.route = .getById id) (may : Authorised req log)
    (fresh : Fresh log) :
    Answers req log (withUuid id (connect >>= fun _ => handleGetById id)) := by
  refine answers_withUuid fresh (answers_connect may fresh fun log may fresh => ?_)
  have names : Names id req.route := by rw [asks]; rfl
  refine answers_getById may fresh names (fun _ _ other => ?_) fun found => ?_
  · rw [asks] at other
    cases other
  · cases found with
    | none => exact shows_last rfl
    | some row => exact shows_last (by rw [asks]; rfl)

theorem create_follows {body : Option Json} (asks : req.route = .create body)
    (may : Authorised req log) (fresh : Fresh log) : Answers req log (create body) := by
  unfold create
  split
  · next fields =>
    split
    · exact answers_refused fresh id
    · next strings =>
      refine .ite (fun _ => answers_refused fresh id) fun valid => ?_
      have brings : Brings req.route (customerCommand fields) :=
        asks ▸ .create strings (not_not.mp valid)
      refine answers_connect may fresh fun log may fresh => ?_
      refine (follows_logging_bind _ _).mpr ⟨may, fun drawn => ?_⟩
      refine (follows_logging_bind _ _).mpr ⟨may.append _, fun time => ?_⟩
      have still := (fresh.append (r := .newUuid) (x := drawn) id).append (r := .utcNow)
        (x := time) id
      exact answers_saveChanges ((may.append _).append _) still.unsaved
        ⟨_, asks, brings, rfl, still⟩ rfl
  · exact answers_refused fresh id

theorem update_follows {id : String} {body : Option Json} (asks : req.route = .update id body)
    (may : Authorised req log) (fresh : Fresh log) : Answers req log (update id body) := by
  unfold update
  refine answers_withUuid fresh ?_
  split
  · next fields =>
    split
    · exact answers_refused fresh fun h => h
    · next clear =>
      refine .ite (fun _ => answers_refused fresh (fun h => h)) fun valid => ?_
      have same : idError id fields = none := by
        cases error : idError id fields with
        | none => rfl
        | some message => simp [error] at clear
      have strings : fieldError fields = none := by simpa [same] using clear
      have brings : Brings req.route (customerCommand fields) :=
        asks ▸ .update same strings (List.append_eq_nil_iff.mp (not_not.mp valid)).2
      refine answers_connect may fresh fun log may fresh => ?_
      have names : Names id req.route := by rw [asks]; rfl
      refine answers_getById may fresh names (fun _ _ _ => ⟨_, brings⟩) fun found => ?_
      cases found with
      | none => exact shows_last rfl
      | some row =>
        exact answers_saveChanges (may.append _) (fresh.unsaved.append (fun h => h))
          ⟨id, _, row, asks, brings, List.mem_append_right _ List.mem_cons_self, rfl⟩ rfl
  · exact answers_refused fresh fun h => h

theorem remove_follows {id : String} (asks : req.route = .remove id) (may : Authorised req log)
    (fresh : Fresh log) :
    Answers req log (withUuid id (connect >>= fun _ => handleDelete id)) := by
  refine answers_withUuid fresh (answers_connect may fresh fun log may fresh => ?_)
  have names : Names id req.route := by rw [asks]; rfl
  refine answers_getById may fresh names (fun _ _ other => ?_) fun found => ?_
  · rw [asks] at other
    cases other
  · cases found with
    | none => exact shows_last rfl
    | some row =>
      exact answers_saveChanges (may.append _) (fresh.unsaved.append (fun h => h))
        ⟨id, row, asks, List.mem_append_right _ List.mem_cons_self, rfl⟩ rfl

theorem controller_follows (may : Authorised req log) (fresh : Fresh log) :
    Answers req log (controller req.route) := by
  unfold controller
  refine Program.Follows.tryCatch (M := fun _ _ => True) ?_ fun _ _ _ => .inr (.inl rfl)
  cases asks : req.route with
  | getAll => exact getAll_follows asks may fresh
  | getById id => exact getById_follows asks may fresh
  | create body => exact create_follows asks may fresh
  | update id body => exact update_follows asks may fresh
  | remove id => exact remove_follows asks may fresh

/-- What the first filter makes of a request. -/
inductive Filtered (req : HttpRequest) (log : List (Event CustomerApi)) :
    Except Answer Attributes → Prop
  | refused {answer} (fresh : Fresh log) (refused : ¬ Proper answer) :
    Filtered req log (.error answer)
  | passed {attributes} (fresh : Fresh log)
    (authorised : adminRoleFilter req.route attributes = none → Authorised req log) :
    Filtered req log (.ok attributes)

theorem jwtAuthFilter_follows (req : HttpRequest) :
    (jwtAuthFilter req.authorization).Follows (.logging (CustomerAsks req)) (Filtered req)
      (fun _ _ => True) [] := by
  have empty : Fresh [] := fun _ member => absurd member List.not_mem_nil
  refine .ite (fun _ => ?_) fun _ => .refused empty id
  refine (follows_logging_bind _ _).mpr ⟨rfl, fun (verified : Except String Claims) => ?_⟩
  have fresh : Fresh ([] ++ [⟨.verifyToken (dropFirst 7 req.authorization), verified⟩]) :=
    empty.append id
  cases read : verified >>= attributesOf with
  | error what => exact .refused fresh id
  | ok attributes =>
    refine .passed fresh fun admitted => ?_
    cases verified with
    | error what => cases read
    | ok claims =>
      exact ⟨claims, attributes, List.mem_append_right _ List.mem_cons_self, read, admitted⟩

theorem adminRoleFilter_refuses {route : Route} {attributes : Attributes} {answer : Answer}
    (filtered : adminRoleFilter route attributes = some answer) : ¬ Proper answer := by
  unfold adminRoleFilter at filtered
  split at filtered
  · split at filtered
    · cases filtered
      exact id
    · cases filtered
  · cases filtered

/-- **A request.** -/
theorem handle_follows (req : HttpRequest) : Answers req [] (handle req) := by
  unfold handle
  refine (jwtAuthFilter_follows req).bind fun log x passed => ?_
  cases passed with
  | refused fresh refused => exact answers_refused fresh refused
  | @passed attributes fresh authorised =>
    dsimp only
    cases filtered : adminRoleFilter req.route attributes with
    | some answer => exact answers_refused fresh (adminRoleFilter_refuses filtered)
    | none => exact controller_follows (authorised filtered) fresh

/-! ## The table as a book -/

def details (row : Customer) : Details := ⟨⟨row.name, row.email, row.rnc⟩, row.createdAt⟩

def statusOf (row : Customer) : Status := if row.isDeleted then .gone else .live (details row)

/-- What the table says of an id. -/
def bookOf (rows : List Customer) : Book := fun id =>
  ((rows.find? fun row => row.id = id).map statusOf).getD .absent

/-- The ids are the database's, and each is there once. -/
structure Keyed (rows : List Customer) : Prop where
  unique : (rows.map (·.id)).Nodup
  lower : ∀ row ∈ rows, uuid row.id = row.id

variable {rows : List Customer} {row : Customer} {id : String}

theorem bookOf_absent : bookOf rows id = .absent ↔ id ∉ rows.map (·.id) := by
  unfold bookOf
  cases found : rows.find? fun row => row.id = id with
  | none =>
    refine ⟨fun _ member => ?_, fun _ => rfl⟩
    obtain ⟨row, here, rfl⟩ := List.mem_map.mp member
    simpa using List.find?_eq_none.mp found row here
  | some row =>
    refine ⟨fun absent => ?_, fun other => absurd ?_ other⟩
    · simp only [Option.map_some, Option.getD_some, statusOf] at absent
      split at absent <;> cases absent
    · have same : row.id = id := by simpa using List.find?_some found
      exact same ▸ List.mem_map_of_mem (List.mem_of_find?_eq_some found)

theorem Keyed.bookOf (keyed : Keyed rows) (member : row ∈ rows) :
    bookOf rows row.id = statusOf row := by
  unfold LinearizableCustomers.bookOf
  cases found : rows.find? fun other => other.id = row.id with
  | none => simpa using List.find?_eq_none.mp found row member
  | some other =>
    have same : other.id = row.id := by simpa using List.find?_some found
    rw [List.inj_on_of_nodup_map keyed.unique (List.mem_of_find?_eq_some found) member same]
    rfl

theorem Keyed.live_iff (keyed : Keyed rows) {d : Details} :
    LinearizableCustomers.bookOf rows id = .live d ↔
      ∃ row ∈ rows, row.id = id ∧ row.isDeleted = false ∧ details row = d := by
  constructor
  · intro live
    have here : id ∈ rows.map (·.id) := by
      by_contra other
      rw [bookOf_absent.mpr other] at live
      cases live
    obtain ⟨row, member, rfl⟩ := List.mem_map.mp here
    rw [keyed.bookOf member, statusOf] at live
    split at live
    · cases live
    · next kept => exact ⟨row, member, rfl, by simpa using kept, Status.live.inj live⟩
  · rintro ⟨row, member, rfl, kept, rfl⟩
    rw [keyed.bookOf member, statusOf, kept]
    rfl

/-- A row that is new. -/
theorem bookOf_concat (new : row.id ∉ rows.map (·.id)) :
    bookOf (rows ++ [row]) = Function.update (bookOf rows) row.id (statusOf row) := by
  funext id
  by_cases same : id = row.id
  · subst same
    rw [Function.update_self]
    have none : (rows.find? fun other => other.id = row.id) = none :=
      List.find?_eq_none.mpr fun other member same =>
        new (List.mem_map.mpr ⟨other, member, by simpa using same⟩)
    simp [bookOf, List.find?_append, none]
  · rw [Function.update_of_ne same]
    have other : ¬ row.id = id := fun h => same h.symm
    simp [bookOf, List.find?_append, other]

/-- A row that is replaced. -/
theorem Keyed.bookOf_replaced (keyed : Keyed rows) (member : row ∈ rows)
    (change : Customer → Customer) (kept : ∀ row, (change row).id = row.id) :
    LinearizableCustomers.bookOf
        (rows.map fun other => if other.id = row.id then change other else other) =
      Function.update (LinearizableCustomers.bookOf rows) row.id (statusOf (change row)) := by
  have keys : ∀ other, (if other.id = row.id then change other else other).id = other.id := by
    intro other
    split
    · exact kept other
    · rfl
  funext id
  have mapped : ((rows.map fun other => if other.id = row.id then change other else other).find?
      fun other => other.id = id) = (rows.find? fun other => other.id = id).map
        fun other => if other.id = row.id then change other else other := by
    rw [List.find?_map]
    congr 1
    refine congrArg (List.find? · rows) (funext fun other => ?_)
    simp [keys]
  unfold LinearizableCustomers.bookOf
  rw [mapped, Option.map_map]
  by_cases same : id = row.id
  · subst same
    have found : (rows.find? fun other => other.id = row.id) = some row := by
      cases found : rows.find? fun other => other.id = row.id with
      | none => simpa using List.find?_eq_none.mp found row member
      | some other =>
        have same : other.id = row.id := by simpa using List.find?_some found
        rw [List.inj_on_of_nodup_map keyed.unique (List.mem_of_find?_eq_some found) member same]
    rw [Function.update_self, found]
    simp
  · rw [Function.update_of_ne same]
    cases found : rows.find? fun other => other.id = id with
    | none => rfl
    | some other =>
      have here : other.id = id := by simpa using List.find?_some found
      have differs : ¬ other.id = row.id := fun h => same (here.symm.trans h)
      simp [differs]

/-- The rows of a query for all. -/
theorem Keyed.lists (keyed : Keyed rows) (arrange : List Customer → List Customer) :
    Lists (LinearizableCustomers.bookOf rows) ((ordered arrange rows).map toDto) := by
  have same : (ordered arrange rows).Perm (rows.filter (!·.isDeleted)) := by
    unfold ordered
    refine (List.perm_insertionSort ..).trans ?_
    split
    · next perm => exact perm
    · exact .refl _
  have live : ∀ row, row ∈ ordered arrange rows ↔ row ∈ rows ∧ row.isDeleted = false := by
    intro row
    rw [same.mem_iff, List.mem_filter, Bool.not_eq_true']
  refine ⟨(ordered arrange rows).map fun row => (row.id, details row), ?_, ?_, ?_, ?_⟩
  · simp [Details.dto, details, toDto]
  · rw [List.map_map]
    refine (same.map _).nodup_iff.mpr ?_
    exact keyed.unique.sublist (List.filter_sublist.map _)
  · intro id d
    rw [keyed.live_iff]
    simp only [List.mem_map, live, Prod.mk.injEq]
    exact ⟨fun ⟨row, ⟨member, kept⟩, same, eq⟩ => ⟨row, member, same, kept, eq⟩,
      fun ⟨row, member, same, kept, eq⟩ => ⟨row, ⟨member, kept⟩, same, eq⟩⟩
  · rw [List.pairwise_map]
    exact List.pairwise_insertionSort _ _

theorem toLower_toLower (c : Char) : c.toLower.toLower = c.toLower := by
  unfold Char.toLower
  split
  · next upper =>
    -- a small letter is no capital one
    refine dif_neg fun ⟨_, high⟩ => ?_
    have low : 65 ≤ c.val.toNat := UInt32.le_iff_toNat_le.mp upper.1
    have high : (c.val + ('a'.val - 'A'.val)).toNat ≤ 90 := UInt32.le_iff_toNat_le.mp high
    have bound : c.val.toNat ≤ 90 := UInt32.le_iff_toNat_le.mp upper.2
    have offset : ('a'.val - 'A'.val).toNat = 32 := rfl
    rw [UInt32.toNat_add, offset] at high
    omega
  · rfl

theorem uuid_uuid (s : String) : uuid (uuid s) = uuid s := by
  simp only [uuid, tolower, String.toList_ofList, List.map_map]
  congr 1
  exact List.map_congr_left fun c _ => toLower_toLower c

theorem Keyed.insert (keyed : Keyed rows) (new : uuid row.id ∉ rows.map (·.id)) :
    Keyed (rows ++ [{ row with id := uuid row.id }]) where
  unique := by
    rw [List.map_append]
    exact List.nodup_append'.mpr ⟨keyed.unique, List.nodup_singleton _, by simpa using new⟩
  lower other member := by
    rcases List.mem_append.mp member with old | last
    · exact keyed.lower other old
    · rw [List.mem_singleton.mp last]
      exact uuid_uuid _

theorem Keyed.replace (keyed : Keyed rows) {change : Customer → Customer}
    (kept : ∀ row, (change row).id = row.id) : Keyed (rows.map change) where
  unique := by
    rw [List.map_map, show ((·.id) ∘ change : Customer → String) = (·.id) from funext kept]
    exact keyed.unique
  lower other member := by
    obtain ⟨row, here, rfl⟩ := List.mem_map.mp member
    rw [kept]
    exact keyed.lower row here

/-! ## Requests at the same time -/

/-- Requests under way. -/
abbrev Serving := Pool HttpRequest CustomerApi Answer World

/-- A table without customers, and the requests that will come.  The customer that
`DbInitializer` puts into a new database is not among them: it is as if a request had
created it. -/
def serving (requests : ℕ → HttpRequest) : Serving := Pool.start handle requests ⟨[]⟩

variable {requests : ℕ → HttpRequest} {w w' : World} {t u : ℕ} {p : Serving}
  {history : List (ℕ × Event CustomerApi)} {i : Input} {write : Write} {rows' : List Customer}

/-- A query. -/
def IsQuery : Request → Prop
  | .selectById _ | .selectAll => True
  | _ => False

/-- What a request has seen. -/
structure Seen (requests : ℕ → HttpRequest) (t : ℕ) (th : Thread HttpRequest CustomerApi Answer)
    (w : World) (_ : List (ℕ × Event CustomerApi)) : Prop where
  operation : th.operation = requests t
  authorised : ∀ e ∈ th.log, IsWork e.request → Authorised (requests t) th.log
  single : ∀ e ∈ th.log, ∀ e' ∈ th.log, IsQuery e.request → IsQuery e'.request → e = e'
  named : ∀ id found, selected id found ∈ th.log → Names id (requests t).route ∧
    ∀ id' body, (requests t).route = .update id' body → ∃ cmd, Brings (requests t).route cmd
  present : ∀ id row, selected id (some row) ∈ th.log →
    row.id = uuid id ∧ row.id ∈ w.rows.map (·.id)
  found : ∀ given, (requests t).route = .remove given → ∀ e ∈ th.log, IsSave e.request →
    ∃ row, selected given (some row) ∈ th.log

/-- What a transaction makes of the book: a new customer, -/
theorem insert_effect (applied : (Write.insert row).apply rows = .ok rows') :
    bookOf rows (uuid row.id) = .absent ∧
      bookOf rows' = Function.update (bookOf rows) (uuid row.id) (statusOf row) := by
  simp only [Write.apply] at applied
  split at applied
  · cases applied
  · next new =>
    obtain rfl := Except.ok.inj applied
    exact ⟨bookOf_absent.mpr new, bookOf_concat new⟩

/-- other details, unless the customer is gone, -/
theorem update_effect (keyed : Keyed rows) (present : id ∈ rows.map (·.id)) (lower : uuid id = id)
    {cmd : CustomerCommand} (applied : (Write.update id cmd).apply rows = .ok rows') :
    (∃ d, bookOf rows id = .live d ∧
      bookOf rows' = Function.update (bookOf rows) id (.live ⟨cmd, d.createdAt⟩)) ∨
    bookOf rows id = .gone ∧ bookOf rows' = bookOf rows := by
  obtain ⟨row, member, rfl⟩ := List.mem_map.mp present
  obtain rfl := Except.ok.inj applied
  rw [lower, keyed.bookOf_replaced member (fun row => { row with
    name := cmd.name, email := cmd.email, rnc := cmd.rnc }) fun _ => rfl, keyed.bookOf member]
  cases deleted : row.isDeleted with
  | true =>
    refine .inr ⟨by simp [statusOf, deleted], ?_⟩
    rw [show statusOf _ = statusOf row by simp [statusOf, deleted], ← keyed.bookOf member]
    exact Function.update_eq_self _ _
  | false => exact .inl ⟨details row, by simp [statusOf, deleted], by simp [statusOf, details]⟩

/-- or a customer that is gone now. -/
theorem remove_effect (keyed : Keyed rows) (present : id ∈ rows.map (·.id)) (lower : uuid id = id)
    (applied : (Write.remove id).apply rows = .ok rows') :
    bookOf rows id ≠ .absent ∧ bookOf rows' = Function.update (bookOf rows) id .gone := by
  refine ⟨fun absent => bookOf_absent.mp absent present, ?_⟩
  obtain ⟨row, member, rfl⟩ := List.mem_map.mp present
  obtain rfl := Except.ok.inj applied
  rw [lower]
  exact keyed.bookOf_replaced member (fun row => { row with isDeleted := true }) fun _ => rfl

/-- A transaction fails and does nothing, or takes effect. -/
theorem save_cases (i : Input) (w : World) (write : Write) :
    ((w.save i write).2 = w ∧ ∃ e, (w.save i write).1 = .error e) ∨
      ∃ rows, write.apply w.rows = .ok rows ∧ (w.save i write).2 = ⟨rows⟩ := by
  unfold World.save
  cases applied : write.apply w.rows with
  | error e =>
    left
    cases i.databaseError <;> exact ⟨rfl, e, rfl⟩
  | ok rows =>
    cases i.databaseError with
    | none => exact .inr ⟨rows, rfl, rfl⟩
    | some e =>
      by_cases committed : i.committed
      · exact .inr ⟨rows, rfl, if_pos committed⟩
      · exact .inl ⟨if_neg committed, e, rfl⟩

/-- What a statement makes of the rows: they are keyed, and no id is lost. -/
theorem apply_keeps (keyed : Keyed rows)
    (applied : write.apply rows = .ok rows') :
    Keyed rows' ∧ ∀ id ∈ rows.map (·.id), id ∈ rows'.map (·.id) := by
  have replaced : ∀ change : Customer → Customer, (∀ row, (change row).id = row.id) →
      rows' = rows.map change → Keyed rows' ∧ ∀ id ∈ rows.map (·.id), id ∈ rows'.map (·.id) := by
    rintro change kept rfl
    refine ⟨keyed.replace kept, fun id here => ?_⟩
    rwa [List.map_map, show ((·.id) ∘ change : Customer → String) = (·.id) from funext kept]
  cases write with
  | insert row =>
    simp only [Write.apply] at applied
    split at applied
    · cases applied
    · next new =>
      obtain rfl := Except.ok.inj applied
      refine ⟨keyed.insert new, fun id here => ?_⟩
      rw [List.map_append]
      exact List.mem_append_left _ here
  | update id cmd =>
    refine replaced _ (fun row => ?_) (Except.ok.inj applied).symm
    split <;> rfl
  | remove id =>
    refine replaced _ (fun row => ?_) (Except.ok.inj applied).symm
    split <;> rfl

/-- An answer keeps the table keyed and loses no id. -/
theorem answer_keeps (keyed : Keyed w.rows) (i : Input) (r : Request) :
    Keyed (customerHost.answer i w r).2.rows ∧
      ∀ id ∈ w.rows.map (·.id), id ∈ (customerHost.answer i w r).2.rows.map (·.id) := by
  cases r with
  | saveChanges write =>
    rcases save_cases i w write with ⟨same, -⟩ | ⟨rows, applied, changed⟩
    · exact ⟨(congrArg (fun v : World => Keyed v.rows) same).mpr keyed,
        fun id here => (congrArg (fun v : World => id ∈ v.rows.map (·.id)) same).mpr here⟩
    · obtain ⟨keyed', kept⟩ := apply_keeps keyed applied
      exact ⟨(congrArg (fun v : World => Keyed v.rows) changed).mpr keyed',
        fun id here => (congrArg (fun v : World => id ∈ v.rows.map (·.id)) changed).mpr
          (kept id here)⟩
  | _ => exact ⟨keyed, fun id here => here⟩

/-- A row that a query found. -/
theorem found_row {id : String} {row : Customer}
    (found : (customerHost.answer i w (.selectById id)).1 = .ok (some row)) :
    row ∈ w.rows ∧ row.id = uuid id ∧ row.isDeleted = false := by
  have reply : i.fetched (w.rows.find? fun row => row.id = uuid id && !row.isDeleted) =
    .ok (some row) := found
  unfold Input.fetched at reply
  split at reply
  · have here := Except.ok.inj reply
    have matches' := List.find?_some here
    simp only [Bool.and_eq_true, decide_eq_true_eq, Bool.not_eq_true'] at matches'
    exact ⟨List.mem_of_find?_eq_some here, matches'⟩
  · cases reply

/-- No row that a query could find. -/
theorem found_none {id : String} (keyed : Keyed w.rows)
    (found : (customerHost.answer i w (.selectById id)).1 = .ok none) (d : Details) :
    bookOf w.rows (uuid id) ≠ .live d := by
  have reply : i.fetched (w.rows.find? fun row => row.id = uuid id && !row.isDeleted) =
    .ok none := found
  unfold Input.fetched at reply
  split at reply
  · intro live
    obtain ⟨row, member, same, kept, -⟩ := keyed.live_iff.mp live
    simpa [same, kept] using List.find?_eq_none.mp (Except.ok.inj reply) row member
  · cases reply

/-- **Step.** -/
theorem seen_step (requests : ℕ → HttpRequest) :
    Pool.StepKeeps customerHost CustomerAsks (fun w _ => Keyed w.rows) (Seen requests)
      fun _ _ => True := by
  intro p t i r next sound rest _ permitted
  have own := sound.threads t
  obtain ⟨keyed, kept⟩ := answer_keeps sound.world i r
  rw [own.operation] at permitted
  refine ⟨keyed, ⟨own.operation, fun e here work => ?_, fun e here e' here' query query' => ?_,
    fun id found here => ?_, fun id row here => ?_, fun given route e here save => ?_⟩,
    fun u _ => ?_⟩
  · rcases List.mem_append.mp here with before | new
    · exact (own.authorised e before work).append _
    · rw [List.mem_singleton.mp new] at work
      refine Authorised.append ?_ _
      cases r with
      | selectById id => exact permitted.1
      | selectAll => exact permitted.1
      | saveChanges write => exact permitted.1
      | _ => exact work.elim
  · -- a second query would not be permitted
    have first : ∀ e ∈ (p.thread t).log, IsQuery e.request → IsQuery r → False := by
      intro e before query query'
      have fresh : Fresh (p.thread t).log := by
        cases r with
        | selectById id => exact permitted.2.2.1
        | selectAll => exact permitted.2.2
        | _ => exact query'.elim
      refine fresh e before ?_
      obtain ⟨r', x⟩ := e
      cases r' <;> first | exact trivial | exact query.elim
    rcases List.mem_append.mp here with before | new <;>
      rcases List.mem_append.mp here' with before' | new'
    · exact own.single e before e' before' query query'
    · rw [List.mem_singleton.mp new'] at query'
      exact (first e before query query').elim
    · rw [List.mem_singleton.mp new] at query
      exact (first e' before' query' query).elim
    · rw [List.mem_singleton.mp new, List.mem_singleton.mp new']
  · rcases List.mem_append.mp here with before | new
    · exact own.named id found before
    · have same := List.mem_singleton.mp new
      cases r with
      | selectById id' =>
        obtain rfl := Request.selectById.inj (Event.mk.inj same).1
        exact ⟨permitted.2.1, permitted.2.2.2⟩
      | _ => cases (Event.mk.inj same).1
  · rcases List.mem_append.mp here with before | new
    · obtain ⟨same, present⟩ := own.present id row before
      exact ⟨same, kept _ present⟩
    · have same := List.mem_singleton.mp new
      cases r with
      | selectById id' =>
        obtain ⟨asked, reply⟩ := Event.mk.inj same
        obtain rfl := Request.selectById.inj asked
        obtain ⟨member, same, -⟩ := found_row (eq_of_heq reply).symm
        exact ⟨same, List.mem_map_of_mem member⟩
      | _ => cases (Event.mk.inj same).1
  · rcases List.mem_append.mp here with before | new
    · obtain ⟨row, seen⟩ := own.found given route e before save
      exact ⟨row, List.mem_append_left _ seen⟩
    · rw [List.mem_singleton.mp new] at save
      cases r with
      | saveChanges write =>
        obtain ⟨row, seen⟩ := permitted.2.2.saw route
        exact ⟨row, List.mem_append_left _ seen⟩
      | _ => exact save.elim
  · obtain ⟨operation, authorised, single, named, present, found⟩ := sound.threads u
    refine ⟨operation, authorised, single, named, fun id row here => ?_, found⟩
    obtain ⟨same, before⟩ := present id row here
    exact ⟨same, kept _ before⟩

/-! ## The order -/

/-- An update that has seen its customer, which is now gone. -/
def Overtaken (req : HttpRequest) (log : List (Event CustomerApi)) (rows : List Customer) : Prop :=
  ∃ id body row, req.route = .update id body ∧ selected id (some row) ∈ log ∧
    bookOf rows row.id = .gone

/-- What puts a request into the order. -/
def Worked (req : HttpRequest) (log : List (Event CustomerApi)) (rows : List Customer)
    (a : Answer) : Prop :=
  (∃ e ∈ log, settles req.route e = some a) ∨ (∃ e ∈ log, IsSave e.request) ∨
    Overtaken req log rows ∧ a = .noContent

/-- The requests in the order they have taken effect, with their answers. -/
structure Ledger (requests : ℕ → HttpRequest) (entries : List (ℕ × Answer)) (p : Serving) :
    Prop where
  told : p.Told
  sound : p.Sound CustomerAsks (fun w _ => Keyed w.rows) (Seen requests)
  verified : p.Verified CustomerAsks CustomerShows
  once : (entries.map Prod.fst).Nodup
  replays : Replays (fun req : HttpRequest => Serves req.route) requests (bookOf []) entries
    (bookOf p.world.rows)
  settled : ∀ t, ∀ e ∈ (p.thread t).log, ∀ a, settles (requests t).route e = some a →
    (t, a) ∈ entries
  worked : ∀ entry ∈ entries,
    Worked (requests entry.1) (p.thread entry.1).log p.world.rows entry.2
  overtaken : ∀ t, Unsaved (p.thread t).log →
    Overtaken (requests t) (p.thread t).log p.world.rows → (t, .noContent) ∈ entries

variable {entries : List (ℕ × Answer)} {r : Request} {next : r.Reply → Procedure Answer}

theorem isWork_of_settles {route : Route} {e : Event CustomerApi} {a : Answer}
    (settled : settles route e = some a) : IsWork e.request := by
  obtain ⟨r, x⟩ := e
  cases r <;> first | exact trivial | exact absurd settled nofun

theorem isWork_of_isSave {r : Request} (save : IsSave r) : IsWork r := by
  cases r <;> first | exact trivial | exact save.elim

/-- What is in the order has queried or written. -/
theorem Worked.not_fresh {a : Answer} (h : Worked req log rows a) : ¬ Fresh log := by
  intro fresh
  rcases h with ⟨e, member, settled⟩ | ⟨e, member, save⟩ | ⟨⟨id, _, row, -, seen, -⟩, -⟩
  · exact fresh e member (isWork_of_settles settled)
  · exact fresh e member (isWork_of_isSave save)
  · exact fresh _ seen trivial

theorem Worked.mono {a : Answer} (h : Worked req log rows a) {log' : List (Event CustomerApi)}
    (longer : log ⊆ log') (gone : ∀ id, bookOf rows id = .gone → bookOf rows' id = .gone) :
    Worked req log' rows' a := by
  rcases h with ⟨e, member, settled⟩ | ⟨e, member, save⟩ |
    ⟨⟨id, body, row, route, seen, left⟩, same⟩
  · exact .inl ⟨e, longer member, settled⟩
  · exact .inr (.inl ⟨e, longer member, save⟩)
  · exact .inr (.inr ⟨⟨id, body, row, route, longer seen, gone _ left⟩, same⟩)

/-- A request that has seen its customer, and has not written, is not in the order
yet, unless it is an update that has been overtaken. -/
theorem Ledger.pending (l : Ledger requests entries p) {id : String} {row : Customer}
    (writes : ∀ id', (requests t).route ≠ .getById id')
    (seen : selected id (some row) ∈ (p.thread t).log) (unsaved : Unsaved (p.thread t).log)
    (left : ∀ id' body, (requests t).route = .update id' body →
      bookOf p.world.rows row.id ≠ .gone) : t ∉ entries.map Prod.fst := by
  intro member
  obtain ⟨⟨t, a⟩, here, rfl⟩ := List.mem_map.mp member
  have single := (l.sound.threads t).single
  rcases l.worked _ here with ⟨e, member, settled⟩ | ⟨e, member, save⟩ |
    ⟨⟨id', body, row', route, seen', gone⟩, -⟩
  · -- the query has settled nothing, and there is no other event that could
    have query : IsQuery e.request := by
      have work := isWork_of_settles settled
      obtain ⟨r, x⟩ := e
      cases r <;> first | exact trivial | exact work.elim | exact (unsaved _ member trivial).elim
    obtain rfl := single e member _ seen query trivial
    cases route : (requests t).route with
    | getById id' => exact writes id' route
    | _ => simp [settles, selected, route] at settled
  · exact unsaved e member save
  · have same := single _ seen' _ seen trivial trivial
    obtain ⟨asked, reply⟩ := Event.mk.inj same
    obtain rfl := Request.selectById.inj asked
    obtain rfl := Option.some.inj (Except.ok.inj (eq_of_heq reply))
    exact left id' body route gone

/-- **Growing.** The order after a move, if the entries it adds are accounted for. -/
theorem Ledger.grow (l : Ledger requests entries p) (asks : (p.thread t).rest = .ask r next)
    (more : List (ℕ × Answer)) (new : ∀ entry ∈ more, entry.1 ∉ entries.map Prod.fst)
    (distinct : (more.map Prod.fst).Nodup)
    (replays : Replays (fun req : HttpRequest => Serves req.route) requests (bookOf [])
      (entries ++ more) (bookOf (customerHost.answer i p.world r).2.rows))
    (gone : ∀ id, bookOf p.world.rows id = .gone →
      bookOf (customerHost.answer i p.world r).2.rows id = .gone)
    (settled : ∀ a, settles (requests t).route ⟨r, (customerHost.answer i p.world r).1⟩ = some a →
      (t, a) ∈ entries ++ more)
    (worked : ∀ entry ∈ more, Worked (requests entry.1)
      ((p.move customerHost (.step t i)).thread entry.1).log
      (customerHost.answer i p.world r).2.rows entry.2)
    (here : ∀ id row, (⟨r, (customerHost.answer i p.world r).1⟩ : Event CustomerApi) =
      selected id (some row) → bookOf (customerHost.answer i p.world r).2.rows row.id ≠ .gone)
    (overtaken : ∀ u id body row, (requests u).route = .update id body →
      selected id (some row) ∈ (p.thread u).log → Unsaved (p.thread u).log →
      bookOf p.world.rows row.id ≠ .gone →
      bookOf (customerHost.answer i p.world r).2.rows row.id = .gone →
      (u, .noContent) ∈ entries ++ more) :
    Ledger requests (entries ++ more) (p.move customerHost (.step t i)) := by
  have world : (p.move customerHost (.step t i)).world = (customerHost.answer i p.world r).2 :=
    congrArg Pool.world (Pool.move_step (h := customerHost) (i := i) asks)
  have logs := Pool.log_step (h := customerHost) (i := i) asks
  have longer : ∀ u, (p.thread u).log ⊆ ((p.move customerHost (.step t i)).thread u).log := by
    intro u
    rw [logs]
    split
    · next same => exact same ▸ List.subset_append_left _ _
    · exact fun _ member => member
  constructor
  · exact l.told.move _
  · exact l.sound.move (seen_step requests)
      (fun _ _ _ _ h => ⟨h.operation, h.authorised, h.single, h.named, h.present, h.found⟩) _ trivial
  · exact l.verified.move _
  · rw [List.map_append]
    refine List.nodup_append'.mpr ⟨l.once, distinct, fun u old added => ?_⟩
    obtain ⟨entry, member, rfl⟩ := List.mem_map.mp added
    exact new entry member old
  · rwa [world]
  · intro u e member a same
    rw [logs] at member
    split at member
    · next other =>
      subst other
      rcases List.mem_append.mp member with before | last
      · exact List.mem_append_left _ (l.settled u e before a same)
      · rw [List.mem_singleton.mp last] at same
        exact settled a same
    · exact List.mem_append_left _ (l.settled u e member a same)
  · intro entry member
    rw [world]
    rcases List.mem_append.mp member with old | added
    · exact (l.worked entry old).mono (longer _) gone
    · exact worked entry added
  · rintro u unsaved ⟨id, body, row, route, seen, left⟩
    rw [world] at left
    have before : Unsaved (p.thread u).log := fun e member => unsaved e (longer u member)
    have old : selected id (some row) ∈ (p.thread u).log := by
      rw [logs] at seen
      split at seen
      · next other =>
        subst other
        rcases List.mem_append.mp seen with before | last
        · exact before
        · exact absurd left (here id row (List.mem_singleton.mp last).symm)
      · exact seen
    by_cases already : bookOf p.world.rows row.id = .gone
    · exact List.mem_append_left _ (l.overtaken u before ⟨id, body, row, route, old, already⟩)
    · exact overtaken u id body row route old before already left

/-- A step that settles nothing and leaves the table adds nothing. -/
theorem Ledger.quiet (l : Ledger requests entries p) (asks : (p.thread t).rest = .ask r next)
    (same : (customerHost.answer i p.world r).2 = p.world)
    (unsettled : ∀ a, settles (requests t).route ⟨r, (customerHost.answer i p.world r).1⟩ ≠ some a)
    (here : ∀ id row, (⟨r, (customerHost.answer i p.world r).1⟩ : Event CustomerApi) =
      selected id (some row) → bookOf p.world.rows row.id ≠ .gone) :
    ∃ more, Ledger requests (entries ++ more) (p.move customerHost (.step t i)) := by
  refine ⟨[], l.grow asks [] (by simp) (by simp) ?_ ?_ (fun a settled =>
    absurd settled (unsettled a)) (by simp) ?_ ?_⟩
  · simpa [same] using l.replays
  · exact fun id gone => by rwa [same]
  · simpa [same] using here
  · intro u id body row _ _ _ before after
    rw [same] at after
    exact absurd after before

/-- A step that gives its request its place. -/
theorem Ledger.single (l : Ledger requests entries p) (asks : (p.thread t).rest = .ask r next)
    {a : Answer} (new : t ∉ entries.map Prod.fst)
    (serves : Serves (requests t).route (bookOf p.world.rows) a
      (bookOf (customerHost.answer i p.world r).2.rows))
    (gone : ∀ id, bookOf p.world.rows id = .gone ↔
      bookOf (customerHost.answer i p.world r).2.rows id = .gone)
    (settled : ∀ a', settles (requests t).route ⟨r, (customerHost.answer i p.world r).1⟩ =
      some a' → a' = a)
    (worked : settles (requests t).route ⟨r, (customerHost.answer i p.world r).1⟩ = some a ∨
      IsSave r)
    (here : ∀ id row, (⟨r, (customerHost.answer i p.world r).1⟩ : Event CustomerApi) =
      selected id (some row) → bookOf p.world.rows row.id ≠ .gone) :
    ∃ more, Ledger requests (entries ++ more) (p.move customerHost (.step t i)) := by
  refine ⟨[(t, a)], l.grow asks [(t, a)] (by simpa using new) (by simp)
    (l.replays.concat serves) (fun id => (gone id).mp) ?_ ?_ ?_ ?_⟩
  · intro a' same
    rw [settled a' same]
    exact List.mem_append_right _ List.mem_cons_self
  · intro entry member
    obtain rfl := List.mem_singleton.mp member
    have last : (⟨r, (customerHost.answer i p.world r).1⟩ : Event CustomerApi) ∈
        ((p.move customerHost (.step t i)).thread t).log := by
      rw [Pool.log_step asks, if_pos rfl]
      exact List.mem_append_right _ List.mem_cons_self
    rcases worked with settles | save
    · exact .inl ⟨_, last, settles⟩
    · exact .inr (.inl ⟨_, last, save⟩)
  · exact fun id row same => fun left => here id row same ((gone _).mpr left)
  · exact fun u id body row _ _ _ before after => absurd ((gone _).mpr after) before

/-- A request that has done nothing is not in the order. -/
theorem Ledger.fresh (l : Ledger requests entries p) (fresh : Fresh (p.thread t).log) :
    t ∉ entries.map Prod.fst := by
  intro member
  obtain ⟨⟨t, a⟩, here, rfl⟩ := List.mem_map.mp member
  exact (l.worked _ here).not_fresh fresh

/-- The queries. -/
theorem Ledger.list (l : Ledger requests entries p)
    {next : CustomerApi.Reply .selectAll → Procedure Answer}
    (asks : (p.thread t).rest = .ask .selectAll next) (route : (requests t).route = .getAll)
    (fresh : Fresh (p.thread t).log) :
    ∃ more, Ledger requests (entries ++ more) (p.move customerHost (.step t i)) := by
  cases failed : i.databaseError with
  | some e =>
    have reply : (customerHost.answer i p.world .selectAll).1 = .error e := by
      show i.fetched _ = _
      rw [Input.fetched, failed]
    refine l.quiet asks rfl (fun a => ?_) (fun id row same => ?_)
    · rw [reply]
      exact nofun
    · cases (Event.mk.inj same).1
  | none =>
    have reply : (customerHost.answer i p.world .selectAll).1 =
        .ok (ordered i.arrange p.world.rows) := by
      show i.fetched _ = _
      rw [Input.fetched, failed]
    refine l.single (a := .customers ((ordered i.arrange p.world.rows).map toDto)) asks
      (l.fresh fresh) (.listed route (l.sound.world.lists _)) (fun _ => Iff.rfl) (fun a' same => ?_)
      (.inl ?_) (fun id row same => ?_)
    · rw [reply] at same
      exact (Option.some.inj same).symm
    · rw [reply]
      rfl
    · cases (Event.mk.inj same).1

theorem Ledger.get (l : Ledger requests entries p) {id : String}
    {next : CustomerApi.Reply (.selectById id) → Procedure Answer}
    (asks : (p.thread t).rest = .ask (.selectById id) next) (names : Names id (requests t).route)
    (fresh : Fresh (p.thread t).log) :
    ∃ more, Ledger requests (entries ++ more) (p.move customerHost (.step t i)) := by
  have keyed := l.sound.world
  -- a row that is found is not gone
  have here : ∀ id' row, (⟨.selectById id, (customerHost.answer i p.world (.selectById id)).1⟩ :
      Event CustomerApi) = selected id' (some row) → bookOf p.world.rows row.id ≠ .gone := by
    intro id' row same gone
    obtain ⟨asked, reply⟩ := Event.mk.inj same
    obtain ⟨member, -, kept⟩ := found_row (eq_of_heq reply)
    rw [keyed.bookOf member, statusOf, kept] at gone
    cases gone
  cases reply : (customerHost.answer i p.world (.selectById id)).1 with
  | error e =>
    refine l.quiet asks rfl (fun a => ?_) here
    rw [reply]
    exact nofun
  | ok found =>
    cases found with
    | none =>
      refine l.single (a := .notFound "Customer not found.") asks (l.fresh fresh)
        (.missing names (found_none keyed reply)) (fun _ => Iff.rfl) (fun a' same => ?_)
        (.inl ?_) here
      · rw [reply] at same
        exact (Option.some.inj same).symm
      · rw [reply]
        rfl
    | some row =>
      obtain ⟨member, same, kept⟩ := found_row reply
      cases route : (requests t).route with
      | getById id' =>
        obtain rfl : id' = id := by rwa [route] at names
        refine l.single (a := .customer (toDto row)) asks (l.fresh fresh) ?_ (fun _ => Iff.rfl)
          (fun a' same => ?_) (.inl ?_) here
        · have live : bookOf p.world.rows (uuid id') = .live (details row) := by
            rw [← same, keyed.bookOf member, statusOf, kept]
            rfl
          have served := Serves.shown route live
          rwa [← same] at served
        · rw [reply, route] at same
          exact (Option.some.inj same).symm
        · rw [reply, route]
          rfl
      | _ =>
        refine l.quiet asks rfl (fun a => ?_) here
        rw [reply, route]
        exact nofun

/-- What the answer to a transaction settles. -/
theorem settles_save {route : Route} {reply : Except String Unit} {a : Answer}
    (settled : settles route ⟨.saveChanges write, reply⟩ = some a) :
    a = match write with
      | .insert row => .created row.id
      | _ => .noContent := by
  cases reply with
  | error e => cases settled
  | ok _ => cases write <;> exact (Option.some.inj settled).symm

/-- The updates that a deletion overtakes. -/
def Overtakes (requests : ℕ → HttpRequest) (p : Serving) (id : String) (u : ℕ) : Prop :=
  ∃ given body row, (requests u).route = .update given body ∧
    selected given (some row) ∈ (p.thread u).log ∧ row.id = id ∧ Unsaved (p.thread u).log

/-- There are finitely many. -/
theorem Ledger.overtakes (l : Ledger requests entries p) (id : String) :
    ∃ us : List ℕ, us.Nodup ∧ ∀ u, u ∈ us ↔ Overtakes requests p id u := by
  classical
  refine ⟨((p.history.map Prod.fst).dedup).filter fun u => Overtakes requests p id u,
    (List.nodup_dedup _).filter _, fun u => ?_⟩
  rw [List.mem_filter, List.mem_dedup, decide_eq_true_iff, and_iff_right_iff_imp]
  rintro ⟨given, _, row, -, seen, -, -⟩
  exact List.mem_map.mpr ⟨_, (l.told u _).mpr seen, rfl⟩

/-- The updates that a deletion overtakes come just before it. -/
theorem Ledger.remove (l : Ledger requests entries p) {id given : String}
    {next : CustomerApi.Reply (.saveChanges (.remove id)) → Procedure Answer}
    (asks : (p.thread t).rest = .ask (.saveChanges (.remove id)) next)
    (route : (requests t).route = .remove given) (same : id = uuid given)
    (new : t ∉ entries.map Prod.fst) {d : Details} (live : bookOf p.world.rows id = .live d)
    (effect : bookOf (customerHost.answer i p.world (.saveChanges (.remove id))).2.rows =
      Function.update (bookOf p.world.rows) id .gone) :
    ∃ more, Ledger requests (entries ++ more) (p.move customerHost (.step t i)) := by
  obtain ⟨us, unique, overtaken⟩ := l.overtakes id
  have apart : t ∉ us := by
    intro member
    obtain ⟨_, _, _, other, -⟩ := (overtaken t).mp member
    rw [route] at other
    cases other
  have fsts : (us.map fun u => (u, Answer.noContent)).map Prod.fst = us := by
    rw [List.map_map]
    exact List.map_id us
  refine ⟨us.map (fun u => (u, .noContent)) ++ [(t, .noContent)],
    l.grow asks _ (fun entry member => ?_) ?_ ?_ (fun id' gone => ?_) (fun a settled => ?_)
      (fun entry member => ?_) (fun _ _ other => ?_) ?_⟩
  · rcases List.mem_append.mp member with added | last
    · obtain ⟨u, here, rfl⟩ := List.mem_map.mp added
      obtain ⟨given', body, row, route', seen, rfl, unsaved⟩ := (overtaken u).mp here
      refine l.pending (fun _ other => ?_) seen unsaved fun _ _ _ => ?_
      · rw [route'] at other
        cases other
      · rw [live]
        exact nofun
    · rwa [List.mem_singleton.mp last]
  · rw [List.map_append, fsts]
    exact List.nodup_append'.mpr ⟨unique, by simp, by simpa using apart⟩
  · -- each update changes the details of a customer that is still there
    obtain ⟨b, replays, d', rfl⟩ := l.replays.extend (us.map fun u => (u, .noContent))
      (fun b => ∃ d, b = Function.update (bookOf p.world.rows) id (.live d))
      ⟨d, by rw [← live, Function.update_eq_self]⟩ (by
        rintro u a member _ ⟨d', rfl⟩
        obtain ⟨u, here, entry⟩ := List.mem_map.mp member
        cases entry
        obtain ⟨given', body, row, route', seen, rfl, -⟩ := (overtaken u).mp here
        obtain ⟨cmd, brings⟩ := ((l.sound.threads u).named _ _ seen).2 _ _ route'
        have key := ((l.sound.threads u).present _ _ seen).1
        have there : Function.update (bookOf p.world.rows) row.id (.live d') (uuid given') =
            .live d' := by rw [← key, Function.update_self]
        refine ⟨_, .updated route' brings there, ⟨cmd, d'.createdAt⟩, ?_⟩
        rw [← key, Function.update_idem])
    have removed := replays.concat (t := t) (.removed route (d := d') (by
      rw [← same, Function.update_self]))
    rwa [← same, Function.update_idem, ← effect, List.append_assoc] at removed
  · rw [effect]
    by_cases here : id' = id
    · rw [here, Function.update_self]
    · rwa [Function.update_of_ne here]
  · rw [settles_save settled]
    simp
  · rcases List.mem_append.mp member with added | last
    · obtain ⟨u, here, rfl⟩ := List.mem_map.mp added
      obtain ⟨given', body, row, route', seen, rfl, -⟩ := (overtaken u).mp here
      refine .inr (.inr ⟨⟨given', body, row, route', ?_, ?_⟩, rfl⟩)
      · exact (Pool.log_play (h := customerHost) p u [.step t i]).subset seen
      · rw [effect, Function.update_self]
    · obtain rfl := List.mem_singleton.mp last
      refine .inr (.inl ⟨⟨_, (customerHost.answer i p.world (.saveChanges (.remove id))).1⟩, ?_,
        trivial⟩)
      rw [Pool.log_step asks, if_pos rfl]
      exact List.mem_append_right _ List.mem_cons_self
  · cases (Event.mk.inj other).1
  · intro u given' body row route' seen unsaved before after
    rw [effect] at after
    by_cases here : row.id = id
    · refine List.mem_append_right _ (List.mem_append_left _ (List.mem_map.mpr ⟨u, ?_, rfl⟩))
      exact (overtaken u).mpr ⟨given', body, row, route', seen, here, unsaved⟩
    · rw [Function.update_of_ne here] at after
      exact absurd after before

/-- The transaction. -/
theorem Ledger.save (l : Ledger requests entries p)
    {next : CustomerApi.Reply (.saveChanges write) → Procedure Answer}
    (asks : (p.thread t).rest = .ask (.saveChanges write) next) (unsaved : Unsaved (p.thread t).log)
    (permitted : Permitted (requests t).route (p.thread t).log write) :
    ∃ more, Ledger requests (entries ++ more) (p.move customerHost (.step t i)) := by
  have other : ∀ id row, (⟨.saveChanges write,
      (customerHost.answer i p.world (.saveChanges write)).1⟩ : Event CustomerApi) ≠
        selected id (some row) := by
    intro id row same
    cases (Event.mk.inj same).1
  rcases save_cases i p.world write with ⟨same, e, failed⟩ | ⟨rows, applied, changed⟩
  · refine l.quiet asks same (fun a settled => ?_) fun id row same => (other id row same).elim
    rw [show (customerHost.answer i p.world (.saveChanges write)).1 = .error e from failed]
      at settled
    cases settled
  have world : (customerHost.answer i p.world (.saveChanges write)).2.rows = rows :=
    congrArg World.rows changed
  -- an update and a deletion have seen their customer
  have seen_before : ∀ id given row, selected given (some row) ∈ (p.thread t).log → row.id = id →
      id = uuid given ∧ uuid id = id ∧ id ∈ p.world.rows.map (·.id) := by
    rintro id given row seen rfl
    obtain ⟨same, present⟩ := (l.sound.threads t).present given row seen
    exact ⟨same, by rw [same, uuid_uuid], present⟩
  cases write with
  | insert row =>
    obtain ⟨body, route, brings, kept, fresh⟩ := permitted
    obtain ⟨absent, effect⟩ := insert_effect applied
    rw [statusOf, kept] at effect
    refine l.single (a := .created row.id) asks (l.fresh fresh) ?_ (fun id => ?_)
      (fun _ settled => settles_save settled) (.inr trivial)
      fun id row same => (other id row same).elim
    · rw [world, effect]
      exact .created route brings absent
    · rw [world, effect]
      by_cases here : id = uuid row.id
      · subst here
        rw [absent, Function.update_self]
        exact ⟨nofun, nofun⟩
      · rw [Function.update_of_ne here]
  | update id cmd =>
    obtain ⟨given, body, row, route, brings, seen, same⟩ := permitted
    obtain ⟨key, lower, present⟩ := seen_before id given row seen same
    rcases update_effect l.sound.world present lower applied with ⟨d, live, effect⟩ |
      ⟨gone, effect⟩
    · refine l.single (a := .noContent) asks (l.pending (fun _ other => ?_) seen unsaved
        fun _ _ _ => ?_) ?_ (fun id' => ?_) (fun _ settled => settles_save settled)
        (.inr trivial) fun id row same => (other id row same).elim
      · rw [route] at other
        cases other
      · rw [same, live]
        exact nofun
      · rw [world, effect]
        rw [key] at live ⊢
        exact .updated route brings live
      · rw [world, effect]
        by_cases here : id' = id
        · subst here
          rw [live, Function.update_self]
          exact ⟨nofun, nofun⟩
        · rw [Function.update_of_ne here]
    · -- it was overtaken, and has its place
      have placed := l.overtaken t unsaved ⟨given, body, row, route, seen, by rw [same, gone]⟩
      refine ⟨[], l.grow asks [] (by simp) (by simp) ?_ (fun id' => ?_) (fun a settled => ?_)
        (by simp) (fun id row same => (other id row same).elim) ?_⟩
      · rw [world, effect, List.append_nil]
        exact l.replays
      · rw [world, effect]
        exact fun left => left
      · rw [settles_save settled, List.append_nil]
        exact placed
      · intro u _ _ _ _ _ _ before after
        rw [world, effect] at after
        exact absurd after before
  | remove id =>
    obtain ⟨given, row, route, seen, same⟩ := permitted
    obtain ⟨key, lower, present⟩ := seen_before id given row seen same
    obtain ⟨there, effect⟩ := remove_effect l.sound.world present lower applied
    have new : t ∉ entries.map Prod.fst := by
      refine l.pending (fun _ other => ?_) seen unsaved fun _ _ other => ?_ <;>
      · rw [route] at other
        cases other
    cases status : bookOf p.world.rows id with
    | absent => exact absurd status there
    | live d => exact l.remove asks route key new status (by rw [world, effect])
    | gone =>
      have still : bookOf rows = bookOf p.world.rows := by
        rw [effect, ← status, Function.update_eq_self]
      refine l.single (a := .noContent) asks new ?_ (fun id' => ?_)
        (fun _ settled => settles_save settled) (.inr trivial)
        fun id row same => (other id row same).elim
      · rw [world, still]
        exact .removedAlready route (key ▸ status)
      · rw [world, still]

/-- **Step.** Every move keeps the order. -/
theorem Ledger.move (l : Ledger requests entries p) (m : Move Input) :
    ∃ more, Ledger requests (entries ++ more) (p.move customerHost m) := by
  cases m with
  | kill t =>
    have logs := Pool.log_kill customerHost p t
    refine ⟨[], l.told.move _, ?_, l.verified.move _, ?_, ?_, ?_, ?_, ?_⟩
    · exact l.sound.move (seen_step requests)
        (fun _ _ _ _ h => ⟨h.operation, h.authorised, h.single, h.named, h.present, h.found⟩) _ trivial
    · simpa using l.once
    · rw [List.append_nil]
      exact l.replays
    · intro u
      rw [logs, List.append_nil]
      exact l.settled u
    · intro entry member
      rw [logs]
      exact l.worked entry (by simpa using member)
    · intro u
      rw [logs, List.append_nil]
      exact l.overtaken u
  | step t i =>
    by_cases running : (p.thread t).Running
    · obtain ⟨r, next, asks⟩ := running
      have permitted := l.verified.permitted asks
      rw [(l.sound.threads t).operation] at permitted
      have other : (∀ id, r ≠ .selectById id) → ∀ id row,
          (⟨r, (customerHost.answer i p.world r).1⟩ : Event CustomerApi) = selected id (some row) →
            bookOf p.world.rows row.id ≠ .gone :=
        fun differs id row same => absurd (Event.mk.inj same).1 (differs id)
      cases r with
      | selectAll => exact l.list asks permitted.2.1 permitted.2.2
      | selectById id => exact l.get asks permitted.2.1 permitted.2.2.1
      | saveChanges write => exact l.save asks permitted.2.1 permitted.2.2
      | _ => exact l.quiet asks rfl (fun _ => nofun) (other fun _ => nofun)
    · rw [Pool.move_idle running]
      exact ⟨[], by simpa using l⟩

/-- Nothing has been asked. -/
theorem ledger_start (requests : ℕ → HttpRequest) : Ledger requests [] (serving requests) where
  told := Pool.told_start _ _ _
  sound := Pool.Sound.start (fun req => (handle_follows req).mono (fun _ _ _ => trivial)
    fun _ _ _ => trivial) ⟨List.nodup_nil, nofun⟩ fun _ => ⟨rfl, nofun, nofun, nofun, nofun, fun _ _ => nofun⟩
  verified _ := handle_follows _
  once := List.nodup_nil
  replays := .nil
  settled _ := nofun
  worked := nofun
  overtaken _ _ h := by
    obtain ⟨_, _, _, _, seen, _⟩ := h
    exact absurd seen List.not_mem_nil

/-- What a request returns is in the order, unless the database has failed it. -/
theorem Ledger.returned (l : Ledger requests entries p) {a : Answer}
    (result : (p.thread t).result = some a) :
    (t, a) ∈ entries ∨ a = .internalError ∨ Fresh (p.thread t).log ∧ ¬ Proper a := by
  have shows' := l.verified.returned result
  rw [(l.sound.threads t).operation] at shows'
  rcases shows' with ⟨e, member, settled⟩ | failed | refused
  · exact .inl (l.settled t e member a settled)
  · exact .inr (.inl failed)
  · exact .inr (.inr refused)

/-- What is in the order was authorised. -/
theorem Ledger.authorised (l : Ledger requests entries p) (entry : ℕ × Answer)
    (member : entry ∈ entries) : Authorised (requests entry.1) (p.thread entry.1).log := by
  have own := (l.sound.threads entry.1).authorised
  rcases l.worked entry member with ⟨e, here, settled⟩ | ⟨e, here, save⟩ |
    ⟨⟨id, _, row, -, seen, -⟩, -⟩
  · exact own e here (isWork_of_settles settled)
  · exact own e here (isWork_of_isSave save)
  · exact own _ seen trivial

/-- An order of the requests, with what the proof knows of it. -/
theorem exists_ledgers (requests : ℕ → HttpRequest) :
    ∃ order, Linearization customerHost (fun req : HttpRequest => Serves req.route)
        (fun w => bookOf w.rows) Proper (serving requests) order ∧
      ∀ moves, Ledger requests (order moves) ((serving requests).play customerHost moves) := by
  have accounts : ∀ entries p, Ledger requests entries p →
      Accounts (fun req : HttpRequest => Serves req.route) (fun w : World => bookOf w.rows) Proper
        (serving requests) entries p := fun entries p l =>
    { once := l.once
      begun := fun entry member empty =>
        (l.worked entry member).not_fresh (by rw [empty]; exact nofun)
      returned := fun t a result proper => by
        rcases l.returned result with here | rfl | ⟨-, refused⟩
        · exact here
        · exact proper.elim
        · exact absurd proper refused
      legal := l.replays }
  exact exists_linearization (fun entries p m (l : Ledger requests entries p) => l.move m) accounts
    (ledger_start requests)

/-! ## Deletions of one customer -/

/-- Gone is gone. -/
theorem stays_gone {route : Route} {a : Answer} {b b' : Book} {id : String}
    (serves : Serves route b a b') (gone : b id = .gone) : b' id = .gone := by
  cases serves with
  | created asks brings new =>
    rw [Function.update_of_ne (by rintro rfl; rw [gone] at new; cases new)]
    exact gone
  | updated asks brings live =>
    rw [Function.update_of_ne (by rintro rfl; rw [gone] at live; cases live)]
    exact gone
  | @removed id' d asks live =>
    by_cases same : id = uuid id'
    · rw [same, Function.update_self]
    · rwa [Function.update_of_ne same]
  | _ => exact gone

/-- After a deletion, however it was answered 204, the customer is gone. -/
theorem gone_of_removed {route : Route} {b b' : Book} {id : String}
    (serves : Serves route b .noContent b') (removes : route = .remove id) :
    b' (uuid id) = .gone := by
  cases serves with
  | updated asks => cases removes.symm.trans asks
  | removed asks =>
    obtain rfl := Route.remove.inj (removes.symm.trans asks)
    exact Function.update_self ..
  | removedAlready asks gone =>
    obtain rfl := Route.remove.inj (removes.symm.trans asks)
    exact gone

/-- A deletion in the order has left its customer gone. -/
theorem Ledger.gone (l : Ledger requests entries p) {given : String}
    (removes : (requests t).route = .remove given) (member : (t, .noContent) ∈ entries) :
    bookOf p.world.rows (uuid given) = .gone := by
  obtain ⟨before, after, split⟩ := List.append_of_mem member
  have replays := l.replays
  rw [split] at replays
  obtain ⟨_, _, -, serves, rest⟩ := replays.cut
  exact rest.keeps (gone_of_removed serves removes) fun _ _ _ _ step => stays_gone step

/-- A deletion in the order as answered 204 has found its customer. -/
theorem Ledger.found (l : Ledger requests entries p) {given : String}
    (removes : (requests t).route = .remove given) (member : (t, .noContent) ∈ entries) :
    ∃ row, selected given (some row) ∈ (p.thread t).log := by
  have own := (l.sound.threads t).found given removes
  rcases l.worked _ member with ⟨e, here, settled⟩ | ⟨e, here, save⟩ | ⟨⟨id, body, _, route, -⟩, -⟩
  · refine own e here ?_
    obtain ⟨r, x⟩ := e
    cases r with
    | selectAll =>
      cases x <;> cases settled
    | selectById id =>
      rw [removes] at settled
      rcases x with _ | _ | _ <;> cases settled
    | saveChanges write => exact trivial
    | _ => cases settled
  · exact own e here save
  · rw [removes] at route
    cases route

/-- While a customer is gone no query finds it. -/
theorem log_of_gone {id : String} {m : Move Input} (keyed : Keyed p.world.rows)
    (gone : bookOf p.world.rows (uuid id) = .gone)
    (before : ∀ row, selected id (some row) ∉ (p.thread u).log) (row : Customer) :
    selected id (some row) ∉ ((p.move customerHost m).thread u).log := by
  cases m with
  | kill t =>
    rw [Pool.log_kill]
    exact before row
  | step t i =>
    by_cases running : (p.thread t).Running
    · obtain ⟨r, next, asks⟩ := running
      rw [Pool.log_step asks]
      split
      · next here =>
        subst here
        intro member
        rcases List.mem_append.mp member with old | new
        · exact before row old
        · obtain ⟨asked, reply⟩ := Event.mk.inj (List.mem_singleton.mp new)
          subst asked
          obtain ⟨there, same, kept⟩ := found_row (eq_of_heq reply).symm
          rw [← same, keyed.bookOf there, statusOf, kept] at gone
          cases gone
      · exact before row
    · rw [Pool.move_idle running]
      exact before row

/-- **Deletions.** Where a deletion is in the order as done, one of the same customer
that begins later is not. -/
theorem not_removed_again {order : List (Move Input) → List (ℕ × Answer)}
    (ledgers : ∀ moves,
      Ledger requests (order moves) ((serving requests).play customerHost moves))
    (grows : ∀ first rest, order first <+: order (first ++ rest)) {first : List (Move Input)}
    {given given' : String} (removes : (requests t).route = .remove given)
    (again : (requests u).route = .remove given') (same : uuid given' = uuid given)
    (removed : (t, .noContent) ∈ order first)
    (later : (((serving requests).play customerHost first).thread u).log = [])
    (rest : List (Move Input)) : (u, .noContent) ∉ order (first ++ rest) := by
  have unseen : ∀ row, selected given' (some row) ∉
      (((serving requests).play customerHost (first ++ rest)).thread u).log := by
    induction rest using List.reverseRecOn with
    | nil =>
      rw [List.append_nil, later]
      exact fun _ => List.not_mem_nil
    | append_singleton rest m ih =>
      have l := ledgers (first ++ rest)
      have gone := same ▸ l.gone removes ((grows first rest).subset removed)
      rw [← List.append_assoc, Pool.play_append _ (first ++ rest)]
      exact log_of_gone l.sound.world gone ih
  intro member
  obtain ⟨row, seen⟩ := (ledgers (first ++ rest)).found again member
  exact unseen row seen

/-- **Linearizability.** Requests for customers, at the same time and with their
processes and the database failing at will, behave as if each happened at once:
there is an order of them in which every proper answer is what the request may be
answered then, and which keeps to the order of requests that do not overlap.  A
request in it had a token that was verified and lets it pass; it is answered as
the order says, or with an internal error.  A deletion that begins when one of the
same customer is in the order is not in it as done. -/
theorem customers_linearizable (requests : ℕ → HttpRequest) :
    ∃ order, Linearization customerHost (fun req : HttpRequest => Serves req.route)
        (fun w => bookOf w.rows) Proper (serving requests) order ∧
      (∀ moves, ∀ entry ∈ order moves,
        let th := ((serving requests).play customerHost moves).thread entry.1
        Authorised (requests entry.1) th.log ∧
          ∀ a, th.result = some a → a = entry.2 ∨ a = .internalError) ∧
      ∀ first rest t u given given', (requests t).route = .remove given →
        (requests u).route = .remove given' → uuid given' = uuid given →
        (t, .noContent) ∈ order first →
        (((serving requests).play customerHost first).thread u).log = [] →
        (u, .noContent) ∉ order (first ++ rest) := by
  obtain ⟨order, linear, ledgers⟩ := exists_ledgers requests
  refine ⟨order, linear, fun moves entry member => ?_,
    fun first rest t u given given' removes again same removed later => ?_⟩
  · have l := ledgers moves
    refine ⟨l.authorised entry member, fun a result => ?_⟩
    rcases l.returned result with here | failed | ⟨fresh, -⟩
    · exact .inl (congrArg Prod.snd (List.inj_on_of_nodup_map l.once here member rfl))
    · exact .inr failed
    · exact absurd fresh (l.worked entry member).not_fresh
  · exact not_removed_again ledgers linear.grows removes again same removed later rest

end EcfDgii.LinearizableCustomers
