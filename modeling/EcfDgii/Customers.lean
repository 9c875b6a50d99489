import EcfDgii.DirectSending
import Mathlib.Data.List.Sort

/-!
Customers (`CustomersController.cpp`, `CustomerHandlers.cpp`,
`CustomerRepository.cpp`, `RequestValidators.cpp`), behind `JwtAuthFilter` and
`AdminRoleFilter`.

A request is a program over `Request`: the verification of its token, its
connection, its queries and the transaction at its end.  `customerHost` answers
over the table; the database may fail, and a commit that fails may have taken
effect.  An id is a uuid, so it is compared without regard to case.  Left out
are the audit columns that no answer shows, and the limits of the schema, which
are those of the validators.
-/

set_option autoImplicit false

namespace EcfDgii.Customers

open EcfDgii.Text EcfDgii.DgiiReplies EcfDgii.Programs EcfDgii.Execution EcfDgii.Engine
open EcfDgii.DirectSending

/-! ## Commands and their validators -/

structure CustomerDto where
  id : String
  name : String
  email : String
  rnc : String
  deriving DecidableEq

/-- `CreateCustomerCommand`, and the fields of `UpdateCustomerCommand` beside its
id. -/
structure CustomerCommand where
  name : String
  email : String
  rnc : String
  deriving DecidableEq

/-- `[^@\s]+@[^@\s]+\.[^@\s]+`. -/
def isEmail (s : String) : Bool :=
  match s.toList.splitOn '@' with
  | [user, domain] =>
    user ≠ [] && !user.any isspace && !domain.any isspace &&
      ((domain.drop 1).dropLast).contains '.'
  | _ => false

/-- A property's name and what is wrong with it. -/
abbrev ValidationFailure := String × String

/-- The checks that both validators make. -/
def CustomerCommand.validate (c : CustomerCommand) : List ValidationFailure :=
  (if c.name = "" then [("Name", "Name is required.")] else []) ++
    (if 200 < c.name.utf8ByteSize then [("Name", "Name must not exceed 200 characters.")]
      else []) ++
    (if c.email = "" then [("Email", "Email is required.")] else []) ++
    (if c.email ≠ "" ∧ !isEmail c.email then
      [("Email", "Email must be a valid email address.")] else []) ++
    (if 150 < c.email.utf8ByteSize then [("Email", "Email must not exceed 150 characters.")]
      else []) ++
    (if c.rnc = "" then [("Rnc", "RNC is required.")] else []) ++
    (if c.rnc ≠ "" ∧ !isRnc c.rnc then
      [("Rnc", "RNC must be exactly 9 or 11 numeric digits.")] else [])

/-- `validate(const CreateCustomerCommand&)`. -/
def validateCreate (c : CustomerCommand) : List ValidationFailure := c.validate

/-- `validate(const UpdateCustomerCommand&)`. -/
def validateUpdate (id : String) (c : CustomerCommand) : List ValidationFailure :=
  (if id = "" then [("Id", "Customer ID is required.")] else []) ++ c.validate

/-! ## Answers -/

/-- What a request is answered. -/
inductive Answer
  | customers (dtos : List CustomerDto)
  | customer (dto : CustomerDto)
  | created (id : String)
  | noContent
  | badRequest (message : String)
  | notFound (message : String)
  | invalid (failures : List ValidationFailure)
  | unauthorized (detail : String)
  | forbidden
  | internalError

/-- `toJson(const app::CustomerDto&)`. -/
def CustomerDto.toJson (dto : CustomerDto) : Json :=
  .object [("id", .string dto.id), ("name", .string dto.name), ("email", .string dto.email),
    ("rnc", .string dto.rnc)]

/-- The failures by property, in the order of a `std::map`. -/
def groupedErrors (failures : List ValidationFailure) : List (String × Json) :=
  (["Email", "Id", "Name", "Rnc"].filter (· ∈ failures.map Prod.fst)).map fun property =>
    (property, .array ((failures.filter (·.1 = property)).map fun failure => .string failure.2))

/-- `application/problem+json`. -/
def problem (title detail : String) (others : List (String × Json)) (statusCode : ℕ) :
    HttpResponse where
  statusCode := statusCode
  headers := [("Content-Type", "application/problem+json")]
  body := .json (.object ([("title", .string title), ("status", .number statusCode),
    ("detail", .string detail)] ++ others))

/-- The answer on the wire; the path is for the exception handler of `main.cpp`. -/
def Answer.toResponse (path : String) : Answer → HttpResponse
  | .customers dtos => { statusCode := 200, body := .json (.array (dtos.map (·.toJson))) }
  | .customer dto => { statusCode := 200, body := .json dto.toJson }
  | .created id =>
    { statusCode := 201, headers := [("Location", "/api/customers/" ++ id)],
      body := .json (.string id) }
  | .noContent => { statusCode := 204, body := .text "text/html; charset=utf-8" "" }
  | .badRequest message => err message 400
  | .notFound message => err message 404
  | .invalid failures =>
    problem "Validation Error" "One or more validation failures have occurred."
      [("type", .string "https://tools.ietf.org/html/rfc9457#section-6.1"),
        ("instance", .string path), ("errors", .object (groupedErrors failures))] 400
  | .unauthorized detail => problem "Unauthorized" detail [] 401
  | .forbidden => problem "Forbidden" "Admin role required." [] 403
  | .internalError =>
    problem "Internal Server Error" "Ha ocurrido un error interno en el motor fiscal."
      [("type", .string "https://tools.ietf.org/html/rfc9457#section-6.6")] 500

/-! ## Requests -/

/-- A row of `customers`, the time of creation in seconds. -/
structure Customer where
  id : String
  name : String
  email : String
  rnc : String
  createdAt : ℤ
  isDeleted : Bool := false
  deriving DecidableEq

/-- The staged statements. -/
inductive Write
  | insert (row : Customer)
  | update (id : String) (cmd : CustomerCommand)
  | remove (id : String)
  deriving DecidableEq

/-- The claims of a token by name. -/
abbrev Claims := String → Except String (Option String)

inductive Request
  | verifyToken (token : String)
  | connect
  | newUuid
  | utcNow
  | selectById (id : String)
  | selectAll
  | saveChanges (write : Write)
  deriving DecidableEq

def Request.Reply : Request → Type
  | .verifyToken _ => Except String Claims
  | .connect => Except String Unit
  | .newUuid => String
  | .utcNow => ℤ
  | .selectById _ => Except String (Option Customer)
  | .selectAll => Except String (List Customer)
  | .saveChanges _ => Except String Unit

abbrev CustomerApi : Interface := ⟨Request, Request.Reply⟩

abbrev Procedure (α : Type) := Program CustomerApi α

abbrev ask (r : Request) : Procedure r.Reply := Program.perform (I := CustomerApi) r

abbrev verifyToken (token : String) : Procedure (Except String Claims) := ask (.verifyToken token)

/-- `makeScope`. -/
def connect : Procedure Unit := do
  let opened : Except String Unit ← ask .connect
  .raise opened

abbrev newUuid : Procedure String := ask .newUuid

abbrev utcNow : Procedure ℤ := ask .utcNow

/-- `CustomerRepository::getById`. -/
def getById (id : String) : Procedure (Option Customer) := do
  let found : Except String (Option Customer) ← ask (.selectById id)
  .raise found

/-- `CustomerRepository::getAll`. -/
def getAll : Procedure (List Customer) := do
  let rows : Except String (List Customer) ← ask .selectAll
  .raise rows

/-- `DbContext::saveChanges` of one statement. -/
def saveChanges (write : Write) : Procedure Unit := do
  let saved : Except String Unit ← ask (.saveChanges write)
  .raise saved

/-! ## Handlers -/

def toDto (c : Customer) : CustomerDto := ⟨c.id, c.name, c.email, c.rnc⟩

/-- `CreateCustomerCommandHandler::handle`. -/
def handleCreate (cmd : CustomerCommand) : Procedure Answer := do
  let id ← newUuid
  let createdAt ← utcNow
  saveChanges (.insert ⟨id, cmd.name, cmd.email, cmd.rnc, createdAt, false⟩)
  return .created id

/-- `UpdateCustomerCommandHandler::handle`. -/
def handleUpdate (id : String) (cmd : CustomerCommand) : Procedure Answer := do
  match ← getById id with
  | none => return .notFound "Customer not found."
  | some existing =>
    saveChanges (.update existing.id cmd)
    return .noContent

/-- `DeleteCustomerCommandHandler::handle`. -/
def handleDelete (id : String) : Procedure Answer := do
  match ← getById id with
  | none => return .notFound "Customer not found."
  | some existing =>
    saveChanges (.remove existing.id)
    return .noContent

/-- `GetAllCustomersQueryHandler::handle`. -/
def handleGetAll : Procedure Answer := do
  let rows ← getAll
  return .customers (rows.map toDto)

/-- `GetCustomerByIdQueryHandler::handle`. -/
def handleGetById (id : String) : Procedure Answer := do
  match ← getById id with
  | none => return .notFound "Customer not found."
  | some c => return .customer (toDto c)

/-! ## Controllers -/

/-- The routes of the controller, with the bodies as drogon parses them. -/
inductive Route
  | getAll
  | getById (id : String)
  | create (body : Option Json)
  | update (id : String) (body : Option Json)
  | remove (id : String)

structure HttpRequest where
  authorization : String := ""
  route : Route

def isxdigit (c : Char) : Bool :=
  c.isDigit || ('a' ≤ c && c ≤ 'f') || ('A' ≤ c && c ≤ 'F')

def isValidUuid (s : String) : Bool :=
  s.length = 36 && (s.toList.zipIdx.all fun (c, i) =>
    if i ∈ [8, 13, 18, 23] then c = '-' else isxdigit c)

def invalidUuid : Answer := .badRequest "El ID proporcionado no es un UUID válido."

/-- A controller's check of an id. -/
def withUuid (id : String) (rest : Procedure Answer) : Procedure Answer :=
  if isValidUuid id then rest else return invalidUuid

/-- The first field that is no string. -/
def fieldError (fields : JsonFields) : Option String :=
  (["name", "email", "rnc"].find? fun name => notString (member fields name)).map fun name =>
    "Field '" ++ name ++ "' must be a string."

/-- The command of a body whose fields are strings. -/
def customerCommand (fields : JsonFields) : CustomerCommand where
  name := asString (member fields "name")
  email := asString (member fields "email")
  rnc := asString (member fields "rnc")

/-- What `update` says about the body's id. -/
def idError (id : String) (fields : JsonFields) : Option String :=
  match member fields "id" with
  | none => none
  | some (.string given) =>
    if given ≠ id then some "Mismatched route ID and request body ID." else none
  | some _ => some "Field 'id' must be a string."

/-- `CustomersController::create`. -/
def create (body : Option Json) : Procedure Answer :=
  match body with
  | some (.object fields) =>
    match fieldError fields with
    | some message => return .badRequest message
    | none =>
      let cmd := customerCommand fields
      if validateCreate cmd ≠ [] then return .invalid (validateCreate cmd)
      else do
        connect
        handleCreate cmd
  | _ => return .badRequest "Invalid JSON body."

/-- `CustomersController::update`. -/
def update (id : String) (body : Option Json) : Procedure Answer :=
  withUuid id <|
    match body with
    | some (.object fields) =>
      match (idError id fields).orElse fun _ => fieldError fields with
      | some message => return .badRequest message
      | none =>
        let cmd := customerCommand fields
        if validateUpdate id cmd ≠ [] then return .invalid (validateUpdate id cmd)
        else do
          connect
          handleUpdate id cmd
    | _ => return .badRequest "Invalid JSON body."

/-- The controller of a route, with the exception handler of `main.cpp`. -/
def controller (route : Route) : Procedure Answer :=
  Program.tryCatch
    (match route with
      | .getAll => do
        connect
        handleGetAll
      | .getById id => withUuid id do
        connect
        handleGetById id
      | .create body => create body
      | .update id body => update id body
      | .remove id => withUuid id do
        connect
        handleDelete id)
    fun _ => return .internalError

/-! ## Filters -/

/-- What `JwtAuthFilter` adds to a request. -/
structure Attributes where
  userId : String
  username : String
  role : String

def attributesOf (claims : Claims) : Except String Attributes := do
  let getClaim name := return (← claims name).getD ""
  return { userId := ← getClaim "nameid", username := ← getClaim "name",
           role := ← getClaim "role" }

/-- `JwtAuthFilter::doFilter`. -/
def jwtAuthFilter (authorization : String) : Procedure (Except Answer Attributes) :=
  if startsWith authorization "Bearer " ∧ authorization ≠ "Bearer " then do
    let verified ← verifyToken (dropFirst 7 authorization)
    match verified >>= attributesOf with
    | .ok attributes => return .ok attributes
    | .error what => return .error (.unauthorized ("Invalid token: " ++ what))
  else return .error (.unauthorized "Missing or malformed Authorization header.")

/-- `AdminRoleFilter::doFilter`, in front of `remove` only. -/
def adminRoleFilter (route : Route) (attributes : Attributes) : Option Answer :=
  match route with
  | .remove _ => if attributes.role ≠ "Admin" then some .forbidden else none
  | _ => none

/-- A request, through its filters. -/
def handle (req : HttpRequest) : Procedure Answer := do
  match ← jwtAuthFilter req.authorization with
  | .error answer => return answer
  | .ok attributes =>
    match adminRoleFilter req.route attributes with
    | some answer => return answer
    | none => controller req.route

/-! ## The table -/

/-- A uuid, as the database writes it. -/
def uuid (s : String) : String := tolower s

structure World where
  rows : List Customer

/-- What the environment decides when a request is answered. -/
structure Input where
  verified : Except String Claims := .error "token verification failed"
  drawn : String := ""
  now : ℤ := 0
  /-- How `ORDER BY` arranges rows of the same time. -/
  arrange : List Customer → List Customer := id
  databaseError : Option String := none
  /-- Whether a commit that fails has taken effect. -/
  committed : Bool := false

/-- The rows of `getAll`. -/
def ordered (arrange : List Customer → List Customer) (rows : List Customer) : List Customer :=
  let live := rows.filter (!·.isDeleted)
  (if (arrange live).Perm live then arrange live else live).insertionSort fun a b =>
    a.createdAt ≤ b.createdAt

/-- A statement on the rows; the primary key may refuse it. -/
def Write.apply (rows : List Customer) : Write → Except String (List Customer)
  | .insert row =>
    if uuid row.id ∈ rows.map (·.id) then .error "duplicate key value"
    else .ok (rows ++ [{ row with id := uuid row.id }])
  | .update id cmd => .ok (rows.map fun row =>
      if row.id = uuid id then { row with name := cmd.name, email := cmd.email, rnc := cmd.rnc }
      else row)
  | .remove id => .ok (rows.map fun row =>
      if row.id = uuid id then { row with isDeleted := true } else row)

/-- The transaction. -/
def World.save (w : World) (i : Input) (write : Write) : Except String Unit × World :=
  match i.databaseError, write.apply w.rows with
  | none, .ok rows => (.ok (), ⟨rows⟩)
  | some e, .ok rows => (.error e, if i.committed then ⟨rows⟩ else w)
  | _, .error e => (.error e, w)

/-- A value the database gives, unless it fails. -/
def Input.fetched {α : Type} (i : Input) (value : α) : Except String α :=
  match i.databaseError with
  | none => .ok value
  | some e => .error e

/-- The answers. -/
def customerHost : Host CustomerApi World Input where
  answer i w
    | .verifyToken _ => (i.verified, w)
    | .connect => (i.fetched (), w)
    | .newUuid => (i.drawn, w)
    | .utcNow => (i.now, w)
    | .selectById id =>
      (i.fetched (w.rows.find? fun row => row.id = uuid id && !row.isDeleted), w)
    | .selectAll => (i.fetched (ordered i.arrange w.rows), w)
    | .saveChanges write => w.save i write

end EcfDgii.Customers
