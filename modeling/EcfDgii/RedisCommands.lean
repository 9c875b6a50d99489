import EcfDgii.Readers
import EcfDgii.RedisReplies

/-!
The bytes of the commands (`RedisCacheService.cpp`).

Each call writes its command with the lengths of its arguments in front of them,
behind an `AUTH` where there is a password.  A server reads commands from the
bytes that have come to it; whatever part of them that is, it executes exactly the
command of the call or nothing (`commands_sent_intact`), which is what `Fate`
says of a command.  A byte is a character.
-/

set_option autoImplicit false

namespace EcfDgii.RedisCommands

open EcfDgii.Text EcfDgii.Timestamps EcfDgii.Resp EcfDgii.Readers EcfDgii.ExpiringTables
open EcfDgii.RedisCacheService (Command Fate serve sendRedisCommand)

/-! ## Writing -/

def pingCommand : String := "*1\r\n$4\r\nPING\r\n"

def getCommand (key : String) : String :=
  "*2\r\n$3\r\nGET\r\n$" ++ decimal key.length ++ "\r\n" ++ key ++ "\r\n"

def setCommand (key value : String) (expiration : Option ℤ) : String :=
  match expiration with
  | some count =>
    "*4\r\n$3\r\nSET\r\n$" ++ decimal key.length ++ "\r\n" ++ key ++ "\r\n$" ++
      decimal value.length ++ "\r\n" ++ value ++ "\r\n$2\r\nEX\r\n$" ++
      decimal (decimalInt count).length ++ "\r\n" ++ decimalInt count ++ "\r\n"
  | none =>
    "*3\r\n$3\r\nSET\r\n$" ++ decimal key.length ++ "\r\n" ++ key ++ "\r\n$" ++
      decimal value.length ++ "\r\n" ++ value ++ "\r\n"

def delCommand (key : String) : String :=
  "*2\r\n$3\r\nDEL\r\n$" ++ decimal key.length ++ "\r\n" ++ key ++ "\r\n"

/-- The command of `acquireLock`. -/
def lockCommand (lockKey lockValue : String) (expiration : ℤ) : String :=
  "*6\r\n$3\r\nSET\r\n$" ++ decimal lockKey.length ++ "\r\n" ++ lockKey ++ "\r\n$" ++
    decimal lockValue.length ++ "\r\n" ++ lockValue ++ "\r\n$2\r\nNX\r\n$2\r\nEX\r\n$" ++
    decimal (decimalInt expiration).length ++ "\r\n" ++ decimalInt expiration ++ "\r\n"

def unlockScript : String :=
  "if redis.call('get', KEYS[1]) == ARGV[1] then return redis.call('del', KEYS[1]) else " ++
    "return 0 end"

/-- The command of `releaseLock`. -/
def unlockCommand (lockKey lockValue : String) : String :=
  "*5\r\n$4\r\nEVAL\r\n$" ++ decimal unlockScript.length ++ "\r\n" ++ unlockScript ++
    "\r\n$1\r\n1\r\n$" ++ decimal lockKey.length ++ "\r\n" ++ lockKey ++ "\r\n$" ++
    decimal lockValue.length ++ "\r\n" ++ lockValue ++ "\r\n"

def authCommand (password : String) : String :=
  "*2\r\n$4\r\nAUTH\r\n$" ++ decimal password.length ++ "\r\n" ++ password ++ "\r\n"

/-- What a call sends. -/
def commandText : Command → String
  | .ping => pingCommand
  | .get key => getCommand key
  | .set key value ex => setCommand key value ex
  | .setNx key value ex => lockCommand key value ex
  | .del key => delCommand key
  | .delIfEqual key value => unlockCommand key value

/-- All that `sendRedisCommand` sends. -/
def sent (password : String) (command : Command) : String :=
  (if password ≠ "" then authCommand password else "") ++ commandText command

/-! ## Reading -/

/-- The arguments of a command. -/
def arguments : Command → List String
  | .ping => ["PING"]
  | .get key => ["GET", key]
  | .set key value none => ["SET", key, value]
  | .set key value (some ex) => ["SET", key, value, "EX", decimalInt ex]
  | .setNx key value ex => ["SET", key, value, "NX", "EX", decimalInt ex]
  | .del key => ["DEL", key]
  | .delIfEqual key value => ["EVAL", unlockScript, "1", key, value]

/-- A number, and nothing else. -/
def readInt (text : String) : Option ℤ :=
  match scanInt text.toList with
  | some (n, []) => some n
  | _ => none

/-- What a server makes of the arguments of a command. -/
def interpret (args : List (List Char)) : Option Command :=
  match args.map String.ofList with
  | ["PING"] => some .ping
  | ["GET", key] => some (.get key)
  | ["SET", key, value] => some (.set key value none)
  | ["SET", key, value, "EX", count] => (readInt count).map fun ex => .set key value (some ex)
  | ["SET", key, value, "NX", "EX", count] => (readInt count).map fun ex => .setNx key value ex
  | ["DEL", key] => some (.del key)
  | ["EVAL", script, "1", key, value] =>
    if script = unlockScript then some (.delIfEqual key value) else none
  | _ => none

/-- The commands a server executes, of the bytes that have come to it. -/
def executed (received : List Char) : List Command :=
  (readMessage.stream (received.length + 1) received).1.filterMap interpret

/-! ## What a call writes -/

/-- An argument with its length. -/
def bulkText (arg : String) : String := "$" ++ decimal arg.length ++ "\r\n" ++ arg ++ "\r\n"

theorem bulkText_toList (arg : String) : (bulkText arg).toList = encode (.bulk arg.toList) := by
  simp only [bulkText, String.toList_append, decimal, String.toList_ofList, encode,
    List.append_assoc, List.cons_append, String.length_toList]
  rfl

/-- Arguments with their lengths, and what stands behind them. -/
def bulksText (args : List String) (rest : String) : String :=
  args.foldr (fun arg rest => bulkText arg ++ rest) rest

/-- An array of arguments. -/
def arrayText (args : List String) : String :=
  "*" ++ decimal args.length ++ "\r\n" ++ bulksText args ""

theorem arrayText_toList (args : List String) :
    (arrayText args).toList = (Message.array (args.map String.toList)).encode := by
  have bulks : (bulksText args "").toList =
      (args.map String.toList).flatMap fun arg => encode (.bulk arg) := by
    induction args with
    | nil => rfl
    | cons arg args ih =>
      rw [bulksText, List.foldr_cons, ← bulksText, String.toList_append, ih, bulkText_toList]
      rfl
  rw [arrayText, String.toList_append, bulks]
  simp [Message.encode, decimal, crlf]

/-- Fixed arguments, between the end of what stands before them and the start of
the next one. -/
def between (args : List String) : String := "\r\n" ++ bulksText args "$"

/-- A value with a time to live. -/
def Expires : Command → Prop
  | .set _ _ (some _) => True
  | _ => False

instance : (command : Command) → Decidable (Expires command)
  | .set _ _ (some _) => .isTrue trivial
  | .set _ _ none => .isFalse id
  | .ping | .get _ | .setNx _ _ _ | .del _ | .delIfEqual _ _ => .isFalse id

/-- Most commands are written as the array of their arguments. -/
theorem commandText_array {command : Command} (kept : ¬ Expires command) :
    commandText command = arrayText (arguments command) := by
  have next : "\r\n$" = between [] := by decide
  cases command with
  | ping => decide
  | get key =>
    have head : "*2\r\n$3\r\nGET\r\n$" = "*" ++ decimal 2 ++ between ["GET"] := by decide
    unfold commandText getCommand
    simp only [head, between, arrayText, arguments, bulksText,
      List.length_cons, List.length_nil, Nat.reduceAdd, List.foldr_cons, List.foldr_nil,
      String.append_empty, bulkText, String.append_assoc]
  | set key value ex =>
    cases ex with
    | some ex => exact absurd trivial kept
    | none =>
      have head : "*3\r\n$3\r\nSET\r\n$" = "*" ++ decimal 3 ++ between ["SET"] := by decide
      unfold commandText setCommand
      simp only [head, next, between, arrayText, arguments, bulksText,
        List.length_cons, List.length_nil, Nat.reduceAdd, List.foldr_cons, List.foldr_nil,
        String.append_empty, bulkText, String.append_assoc]
  | setNx key value ex =>
    have head : "*6\r\n$3\r\nSET\r\n$" = "*" ++ decimal 6 ++ between ["SET"] := by decide
    have nx : "\r\n$2\r\nNX\r\n$2\r\nEX\r\n$" = between ["NX", "EX"] := by decide
    unfold commandText lockCommand
    simp only [head, nx, next, between, arrayText, arguments, bulksText,
      List.length_cons, List.length_nil, Nat.reduceAdd, List.foldr_cons, List.foldr_nil,
      String.append_empty, bulkText, String.append_assoc]
  | del key =>
    have head : "*2\r\n$3\r\nDEL\r\n$" = "*" ++ decimal 2 ++ between ["DEL"] := by decide
    unfold commandText delCommand
    simp only [head, between, arrayText, arguments, bulksText,
      List.length_cons, List.length_nil, Nat.reduceAdd, List.foldr_cons, List.foldr_nil,
      String.append_empty, bulkText, String.append_assoc]
  | delIfEqual key value =>
    have head : "*5\r\n$4\r\nEVAL\r\n$" = "*" ++ decimal 5 ++ between ["EVAL"] := by decide
    have keys : "\r\n$1\r\n1\r\n$" = between ["1"] := by decide
    unfold commandText unlockCommand
    simp only [head, keys, next, between, arrayText, arguments,
      bulksText, List.length_cons, List.length_nil, Nat.reduceAdd, List.foldr_cons, List.foldr_nil,
      String.append_empty, bulkText, String.append_assoc]

/-- With an expiration, `SET` announces four arguments and writes five: the array
ends behind `EX`, and the last argument is left as two bare lines. -/
theorem commandText_expiring (key value : String) (ex : ℤ) :
    commandText (.set key value (some ex)) = arrayText ["SET", key, value, "EX"] ++
      "$" ++ decimal (decimalInt ex).length ++ "\r\n" ++ decimalInt ex ++ "\r\n" := by
  have head : "*4\r\n$3\r\nSET\r\n$" = "*" ++ decimal 4 ++ between ["SET"] := by decide
  have expire : "\r\n$2\r\nEX\r\n$" = between ["EX"] := by decide
  have next : "\r\n$" = between [] := by decide
  unfold commandText setCommand
  simp only [head, expire, next, between, arrayText, bulksText, List.length_cons, List.length_nil,
    Nat.reduceAdd, List.foldr_cons, List.foldr_nil, String.append_empty, bulkText,
    String.append_assoc]

/-! ## What a server reads -/

/-- The line of a length that belongs to no array. -/
def lengthLine (n : ℕ) : Line :=
  ⟨'$' :: (digitsLine n).val, by simp [(digitsLine n).property.1],
    by simp [(digitsLine n).property.2]⟩

/-- The messages of a command, as a server finds them. -/
def messagesOf : Command → List Message
  | .set key value (some ex) =>
    [.array (["SET", key, value, "EX"].map String.toList),
      .inline (lengthLine (decimalInt ex).length), .inline (integerLine ex)]
  | command => [.array ((arguments command).map String.toList)]

/-- The messages of a call. -/
def messages (password : String) (command : Command) : List Message :=
  (if password ≠ "" then [.array (["AUTH", password].map String.toList)] else []) ++
    messagesOf command

variable {password : String} {command : Command}

theorem messagesOf_array (kept : ¬ Expires command) :
    messagesOf command = [.array ((arguments command).map String.toList)] := by
  cases command with
  | set key value ex =>
    cases ex with
    | none => rfl
    | some ex => exact absurd trivial kept
  | _ => rfl

theorem authCommand_array (password : String) :
    authCommand password = arrayText ["AUTH", password] := by
  have head : "*2\r\n$4\r\nAUTH\r\n$" = "*" ++ decimal 2 ++ between ["AUTH"] := by decide
  unfold authCommand
  simp only [head, between, arrayText, bulksText, List.length_cons, List.length_nil,
    Nat.reduceAdd, List.foldr_cons, List.foldr_nil, String.append_empty, bulkText,
    String.append_assoc]

theorem commandText_toList (command : Command) :
    (commandText command).toList = (messagesOf command).flatMap Message.encode := by
  by_cases expires : Expires command
  · cases command with
    | set key value ex =>
      cases ex with
      | none => exact absurd expires id
      | some ex =>
        rw [commandText_expiring, messagesOf]
        simp only [String.toList_append, arrayText_toList, List.flatMap_cons, List.flatMap_nil,
          List.append_nil, Message.encode, lengthLine, digitsLine, integerLine_val, decimal,
          String.toList_ofList, List.append_assoc]
        rfl
    | _ => exact absurd expires id
  · rw [commandText_array expires, messagesOf_array expires, arrayText_toList,
      List.flatMap_singleton]

/-- The bytes of a call are those of its messages. -/
theorem sent_encoded (password : String) (command : Command) :
    (sent password command).toList = (messages password command).flatMap Message.encode := by
  rw [sent, messages, String.toList_append, commandText_toList, List.flatMap_append]
  split
  · rw [authCommand_array, arrayText_toList, List.flatMap_singleton]
  · rfl

theorem head_digits (n : ℕ) : (Nat.toDigits 10 n).head? ≠ some '*' := by
  intro head
  have digit : '*'.isDigit = true :=
    Nat.isDigit_of_mem_toDigits (by decide) (by decide) (List.mem_of_mem_head? head)
  exact absurd digit (by decide)

theorem head_decimalInt (n : ℤ) : (integerLine n).val.head? ≠ some '*' := by
  cases n with
  | ofNat n => exact head_digits n
  | negSucc n => simp [integerLine]

theorem messages_plain : ∀ message ∈ messages password command, message.Plain := by
  intro message member
  have array (args : List (List Char)) : (Message.array args).Plain := trivial
  rw [messages] at member
  rcases List.mem_append.mp member with auth | member
  · split at auth
    · rw [List.mem_singleton.mp auth]
      exact array _
    · cases auth
  by_cases expires : Expires command
  · cases command with
    | set key value ex =>
      cases ex with
      | none => exact absurd expires id
      | some ex =>
        simp only [messagesOf, List.mem_cons, List.not_mem_nil, or_false] at member
        rcases member with rfl | rfl | rfl
        · exact array _
        · exact show ('$' :: _ : List Char).head? ≠ some '*' by simp
        · exact head_decimalInt ex
    | _ => exact absurd expires id
  · rw [messagesOf_array expires] at member
    rw [List.mem_singleton.mp member]
    exact array _

/-- A number is read back. -/
theorem readInt_decimalInt (n : ℤ) : readInt (decimalInt n) = some n := by
  have digits (n : ℕ) (c : Char) (member : c ∈ Nat.toDigits 10 n) : c.isDigit = true :=
    Nat.isDigit_of_mem_toDigits (by decide) (by decide) member
  have scanned (n : ℕ) : scanInt (Nat.toDigits 10 n) = some ((n : ℤ), []) := by
    have stop : ∀ c ∈ ([] : List Char).head?, c.isDigit = false := nofun
    have padded := scanInt_padded 1 n stop
    rwa [padded_one, List.append_nil] at padded
  cases n with
  | ofNat n => rw [readInt, decimalInt, decimal, String.toList_ofList, scanned]; rfl
  | negSucc n =>
    have taken : (Nat.toDigits 10 (n + 1)).takeWhile Char.isDigit = Nat.toDigits 10 (n + 1) :=
      List.takeWhile_eq_self_iff.mpr (digits _)
    have left : (Nat.toDigits 10 (n + 1)).dropWhile Char.isDigit = [] :=
      List.dropWhile_eq_nil_iff.mpr (digits _)
    have minus : isspace '-' = false := by decide
    have text : (decimalInt (.negSucc n)).toList = '-' :: Nat.toDigits 10 (n + 1) := by
      simp [decimalInt, decimal]
    have read : scanInt ('-' :: Nat.toDigits 10 (n + 1)) = some (.negSucc n, []) := by
      rw [scanInt, List.dropWhile_cons_of_neg (by simp [minus])]
      simp only [taken, left]
      split
      · next none => exact absurd none Nat.toDigits_ne_nil
      · rw [Nat.ofDigitChars_ten_toDigits, Int.neg_one_mul]
        rfl
    rw [readInt, text, read]

/-- A server finds the command in its arguments. -/
theorem interpret_arguments (command : Command) :
    interpret ((arguments command).map String.toList) = some command := by
  cases command with
  | set key value ex =>
    cases ex with
    | none => simp [interpret, arguments]
    | some ex => simp [interpret, arguments, readInt_decimalInt]
  | _ => simp [interpret, arguments, readInt_decimalInt]

theorem interpret_auth (password : String) :
    interpret (["AUTH", password].map String.toList) = none := by simp [interpret]

/-- `EX` without a number. -/
theorem interpret_cut (key value : String) :
    interpret (["SET", key, value, "EX"].map String.toList) = none := by simp [interpret]

theorem interpret_word {line : List Char} (single : ' ' ∉ line) (other : line ≠ "PING".toList) :
    interpret (words line) = none := by
  have ping : String.ofList line ≠ "PING" := fun same => other (by rw [← same]; simp)
  rw [words, List.splitOn_eq_singleton single]
  simp [interpret, ping]

/-- The characters of a number. -/
theorem mem_integerLine {n : ℤ} {c : Char} (member : c ∈ (integerLine n).val) :
    c = '-' ∨ c.isDigit = true := by
  have digit {n : ℕ} (member : c ∈ Nat.toDigits 10 n) : c.isDigit = true :=
    Nat.isDigit_of_mem_toDigits (by decide) (by decide) member
  cases n with
  | ofNat n => exact .inr (digit member)
  | negSucc n => exact (List.mem_cons.mp member).imp_right digit

/-- A bare number is no command. -/
theorem interpret_integer (n : ℤ) : interpret (words (integerLine n).val) = none := by
  refine interpret_word (fun blank => ?_) (fun same => ?_)
  · exact absurd (mem_integerLine blank) (by decide)
  · have first : 'P' ∈ (integerLine n).val := by rw [same]; decide
    exact absurd (mem_integerLine first) (by decide)

/-- A bare length is no command. -/
theorem interpret_length (n : ℕ) : interpret (words (lengthLine n).val) = none := by
  refine interpret_word (fun blank => ?_) (fun same => ?_)
  · rcases List.mem_cons.mp blank with other | digit
    · cases other
    · exact absurd (mem_integerLine (n := n) digit) (by decide)
  · cases same

/-- The command stands at the end of what is sent, if it is there at all. -/
theorem messages_last (password : String) (command : Command) :
    ∃ front last, (messages password command).map Message.args = front ++ [last] ∧
      (∀ args ∈ front, interpret args = none) ∧
      interpret last = if Expires command then none else some command := by
  obtain ⟨auth, prompt, none⟩ : ∃ auth : List (List (List Char)),
      (if password ≠ "" then [Message.array (["AUTH", password].map String.toList)] else []).map
        Message.args = auth ∧ ∀ args ∈ auth, interpret args = none := by
    refine ⟨_, rfl, ?_⟩
    split
    · intro args member
      rw [List.mem_singleton.mp member]
      exact interpret_auth password
    · nofun
  rw [messages, List.map_append, prompt]
  by_cases expires : Expires command
  · rw [if_pos expires]
    cases command with
    | set key value ex =>
      cases ex with
      | none => exact absurd expires id
      | some ex =>
        refine ⟨auth ++ [["SET", key, value, "EX"].map String.toList,
          words (lengthLine (decimalInt ex).length).val], _, ?_, ?_, interpret_integer ex⟩
        · rw [messagesOf, List.append_assoc]
          rfl
        · intro args member
          rcases List.mem_append.mp member with early | late
          · exact none args early
          · simp only [List.mem_cons, List.not_mem_nil, or_false] at late
            rcases late with rfl | rfl
            · exact interpret_cut key value
            · exact interpret_length _
    | _ => exact absurd expires id
  · rw [if_neg expires, messagesOf_array expires]
    exact ⟨auth, _, rfl, none, interpret_arguments command⟩

/-- **Commands are executed whole or not at all.**  Of whatever has come of the
bytes of a call, a server executes the command of the call when it has come whole,
and nothing otherwise; of a value with an expiration it executes nothing, however
much has come. -/
theorem commands_sent_intact (password : String) (command : Command) {received : List Char}
    (begins : received <+: (sent password command).toList) :
    executed received =
      if received = (sent password command).toList ∧ ¬ Expires command then [command] else [] := by
  have bytes : (sent password command).toList =
      ((messages password command).map fun m => (m.encode, m.args)).flatMap Prod.fst := by
    rw [sent_encoded, List.flatMap_map]
  rw [bytes] at begins ⊢
  have each : ∀ part ∈ (messages password command).map fun m => (m.encode, m.args),
      Takes readMessage part.1 part.2 := by
    intro part member
    obtain ⟨message, sent, rfl⟩ := List.mem_map.mp member
    exact takes_message (messages_plain message sent)
  obtain ⟨some_values, all⟩ := stream_spec rfl each begins (Nat.lt_succ_self received.length)
  obtain ⟨front, last, whole, before, final⟩ := messages_last password command
  have values : ((messages password command).map fun m => (m.encode, m.args)).map Prod.snd =
      front ++ [last] := by
    rw [List.map_map]
    exact whole
  rw [values] at some_values all
  have nothing : ∀ {values : List (List (List Char))}, values <+: front →
      values.filterMap interpret = [] := fun early =>
    List.filterMap_eq_nil_iff.mpr fun args member => before args (early.subset member)
  rw [executed]
  rcases List.prefix_concat_iff.mp some_values with came | early
  · have all := all.mp came
    rw [came, List.filterMap_append, nothing List.prefix_rfl, List.nil_append]
    by_cases expires : Expires command
    · rw [if_neg fun both => both.2 expires]
      simp [final, expires]
    · rw [if_pos ⟨all, expires⟩]
      simp [final, expires]
  · have part : received ≠ _ := fun whole => by
      have long := early.length_le
      rw [all.mpr whole, List.length_append, List.length_singleton] at long
      omega
    rw [if_neg fun both => part both.1, nothing early]

/-- A `GET` that has come whole, behind its `AUTH`, and a `SET` with an expiration. -/
theorem commands_sent_intact_sample :
    executed (sent "clave" (.get "ecf:directory:all")).toList = [.get "ecf:directory:all"] ∧
      executed (sent "" (.set "ecf:services:status" "[]" (some 300))).toList = [] :=
  ⟨(commands_sent_intact "clave" (.get "ecf:directory:all") List.prefix_rfl).trans
      (if_pos ⟨rfl, id⟩),
    (commands_sent_intact "" (.set "ecf:services:status" "[]" (some 300)) List.prefix_rfl).trans
      (if_neg fun both => both.2 trivial)⟩

/-! ## What becomes of the server -/

/-- The server, with the bytes that have come to it. -/
def served (now : ℤ) (redis : Table String String) (received : List Char) : Table String String :=
  (executed received).foldl (fun redis command => (serve now redis command).2) redis

/-- How a command ends, of which these bytes have come. -/
def fateOf (received : List Char) (replied : Bool) : Fate :=
  if executed received = [] then .unreached else if replied then .answered else .unanswered

/-- A value with an expiration does not get to the server. -/
theorem fateOf_expiring (command : Command) (expires : Expires command) {received : List Char}
    (begins : received <+: (sent password command).toList) (replied : Bool) :
    fateOf received replied = .unreached := by
  rw [fateOf, commands_sent_intact password command begins]
  simp [expires]

/-- **The fates of a command are those of its bytes.** -/
theorem served_eq {received : List Char} (begins : received <+: (sent password command).toList)
    (now : ℤ) (redis : Table String String) (replied : Bool) :
    served now redis received =
      (sendRedisCommand (fateOf received replied) now redis command).2 := by
  rw [served, fateOf, commands_sent_intact password command begins]
  by_cases whole : received = (sent password command).toList ∧ ¬ Expires command
  · rw [if_pos whole, if_neg (List.cons_ne_nil _ _)]
    cases replied <;> rfl
  · rw [if_neg whole, if_pos rfl]
    rfl

end EcfDgii.RedisCommands
