import EcfDgii.RedisCacheService
import EcfDgii.Resp

/-!
The bytes of Redis' replies (`RedisCacheService::sendRedisCommand`, `get`).

`received` is what the receive loop asks of the bytes it has, `readReply` the
loop, and `decodeGet` what `get` makes of them; a byte is a character.
`received_tells` says that the test tells each reply from what arrives before
it, and `replies_read_whole` that a reply is therefore read whole in any chunks
and `get` returns the bytes of its value.  `get_eq_getBytes` connects this to the
commands and replies of `RedisCacheService`.
-/

set_option autoImplicit false

namespace EcfDgii.RedisReplies

open EcfDgii.Text EcfDgii.Timestamps EcfDgii.Resp
open EcfDgii.RedisCacheService (Deployment Fate checkRedisAvailability getFromMemory serve)

/-! ## Reading -/

/-- `std::stoll` and `std::stoi`: a number at the start of the text that so many
bits can hold. -/
def stoInt (bits : ℕ) (cs : List Char) : Option ℤ :=
  match scanInt cs with
  | some (n, _) => if -2 ^ (bits - 1) ≤ n ∧ n < 2 ^ (bits - 1) then some n else none
  | none => none

/-- `response.substr(1, crlf - 1)`. -/
def header (response : List Char) (crlf : ℕ) : List Char := (response.drop 1).take (crlf - 1)

/-- The test of the receive loop: whether it stops with these bytes. -/
def received (response : List Char) : Bool :=
  match response with
  | [] => false
  | kind :: _ =>
    if kind = '+' ∨ kind = '-' ∨ kind = ':' then
      decide (2 ≤ response.length ∧ response.drop (response.length - 2) = crlf)
    else if kind = '$' then
      if "$-1\r\n".toList.isPrefixOf response then true
      else
        match findCrlf response with
        | none => false
        | some crlf =>
          match stoInt 64 (header response crlf) with
          | some len => decide (0 ≤ len ∧ (crlf : ℤ) + 2 + len + 2 ≤ response.length)
          | none => true
    else true

/-- The receive loop of `sendRedisCommand`: the response, and the chunks left. -/
def readReply (chunks : List (List Char)) : List Char × List (List Char) :=
  receive received [] chunks

/-- What `get` finds in a response. -/
inductive Fetched
  | found (value : List Char)
  | missing
  | unclear
  deriving DecidableEq

/-- `get`, from the response on. -/
def decodeGet (resp : List Char) : Fetched :=
  if "$".toList.isPrefixOf resp then
    if "$-1".toList.isPrefixOf resp then .missing
    else
      match findCrlf resp with
      | none => .unclear
      | some crlf =>
        match stoInt 32 (header resp crlf) with
        | some len =>
          if 0 < len ∧ (crlf : ℤ) + 2 + len ≤ resp.length then
            .found ((resp.drop (crlf + 2)).take len.toNat)
          else .unclear
        | none => .unclear
  else .unclear

/-- `RedisCacheService::get`, with the chunks in which the server answers. -/
def getBytes (ping : Fate) (chunks : List (List Char)) (key : String) (d : Deployment) :
    Option String × Deployment :=
  match checkRedisAvailability ping d with
  | (true, d) =>
    match decodeGet (readReply chunks).1 with
    | .found value => (some (String.ofList value), d)
    | .missing => (none, d)
    | .unclear => getFromMemory key d
  | (false, d) => getFromMemory key d

/-! ## The test tells replies -/

variable {response : List Char} {bits n : ℕ}

/-- A length is read back. -/
theorem stoInt_digits (fits : (n : ℤ) < 2 ^ (bits - 1)) :
    stoInt bits (Nat.toDigits 10 n) = some (n : ℤ) := by
  have scanned : scanInt (Nat.toDigits 10 n) = some ((n : ℤ), []) := by
    have stop : ∀ c ∈ ([] : List Char).head?, c.isDigit = false := nofun
    have padded := scanInt_padded 1 n stop
    rwa [padded_one, List.append_nil] at padded
  have low : -2 ^ (bits - 1) ≤ (n : ℤ) := by
    have positive : (0 : ℤ) ≤ 2 ^ (bits - 1) := Int.pow_nonneg (by decide)
    omega
  rw [stoInt, scanned]
  exact if_pos ⟨low, fits⟩

/-- Lines: the test waits for the line feed. -/
theorem received_line {kind : Char} (text : Line) (known : kind = '+' ∨ kind = '-' ∨ kind = ':') :
    Tells received (kind :: text.val ++ crlf) := by
  intro response begins nonempty
  obtain ⟨first, rest, rfl⟩ := List.exists_cons_of_ne_nil nonempty
  obtain rfl : first = kind := (List.cons_prefix_cons.mp begins).1
  have other : first ≠ '\n' := by rcases known with rfl | rfl | rfl <;> decide
  rw [← line_complete text other begins, received, if_pos known, decide_eq_true_eq]
  constructor
  · rintro ⟨-, ends⟩
    have feed : '\n' ∈ crlf := by decide
    exact List.mem_of_mem_drop (ends ▸ feed)
  · intro member
    rw [(line_complete text other begins).mp member]
    have long : (first :: text.val ++ crlf).length = (first :: text.val).length + 2 := by
      simp [crlf]
    refine ⟨by omega, ?_⟩
    rw [long, Nat.add_sub_cancel]
    exact List.drop_left

/-- The test of a bulk response. -/
theorem received_dollar {response : List Char} (opens : response.head? = some '$') :
    received response =
      if "$-1\r\n".toList.isPrefixOf response then true
      else
        match findCrlf response with
        | none => false
        | some crlf =>
          match stoInt 64 (header response crlf) with
          | some len => decide (0 ≤ len ∧ (crlf : ℤ) + 2 + len + 2 ≤ response.length)
          | none => true := by
  have kind : ¬ ('$' = '+' ∨ '$' = '-' ∨ '$' = ':') := by decide
  obtain ⟨rest, rfl⟩ := List.head?_eq_some_iff.mp opens
  rw [received, if_neg kind, if_pos rfl]

/-- A response without a line feed is waited for. -/
theorem received_unfinished (opens : response.head? = some '$') (absent : '\n' ∉ response) :
    received response = false := by
  have other : ¬ "$-1\r\n".toList.isPrefixOf response = true := fun nil =>
    absent ((List.isPrefixOf_iff_prefix.mp nil).subset (by decide))
  rw [received_dollar opens, if_neg other, findCrlf_none absent]

/-- The nil reply. -/
theorem received_nil : Tells received (encode .nil) := by
  intro response begins nonempty
  obtain ⟨first, rest, rfl⟩ := List.exists_cons_of_ne_nil nonempty
  obtain rfl : first = '$' := (List.cons_prefix_cons.mp begins).1
  have whole := line_complete ⟨"-1".toList, by decide, by decide⟩ (by decide) begins
  constructor
  · intro stops
    by_contra cut
    rw [received_unfinished rfl fun member => cut (whole.mp member)] at stops
    exact absurd stops nofun
  · intro same
    rw [same]
    decide

/-! ## Bulk replies -/

/-- The header of a bulk reply. -/
def announced (n : ℕ) : List Char := '$' :: Nat.toDigits 10 n ++ crlf

/-- A header that announces bytes is not the nil reply. -/
theorem announced_not_nil (n : ℕ) (rest : List Char) :
    ¬ "$-1".toList.isPrefixOf (announced n ++ rest) = true := by
  intro nil
  obtain ⟨d, ds, digits⟩ := List.exists_cons_of_ne_nil (Nat.toDigits_ne_nil (n := n) (b := 10))
  have digit : d.isDigit = true :=
    Nat.isDigit_of_mem_toDigits (by decide) (by decide) (digits ▸ List.mem_cons_self)
  have begins : "$-1".toList <+: '$' :: d :: (ds ++ crlf ++ rest) := by
    have nil := List.isPrefixOf_iff_prefix.mp nil
    rwa [announced, digits] at nil
  have second : '-' = d := (List.cons_prefix_cons.mp (List.cons_prefix_cons.mp begins).2).1
  rw [← second] at digit
  exact absurd digit (by decide)

theorem findCrlf_announced (n : ℕ) (rest : List Char) :
    findCrlf (announced n ++ rest) = some ((Nat.toDigits 10 n).length + 1) := by
  have absent : '\r' ∉ '$' :: Nat.toDigits 10 n := by
    have inside : '\r' ∉ Nat.toDigits 10 n := (digitsLine n).property.1
    simp [inside]
  exact findCrlf_line absent rest

theorem header_announced (n : ℕ) (rest : List Char) :
    header (announced n ++ rest) ((Nat.toDigits 10 n).length + 1) = Nat.toDigits 10 n := by
  rw [header, announced, Nat.add_sub_cancel]
  simp

theorem length_announced (n : ℕ) : (announced n).length = (Nat.toDigits 10 n).length + 3 := by
  simp [announced, crlf]

/-- A bulk reply of which more than the header has come. -/
theorem received_content {content rest : List Char}
    (short : (content.length : ℤ) < 2 ^ 63) (begins : rest <+: content ++ crlf) :
    received (announced content.length ++ rest) = true ↔ rest = content ++ crlf := by
  have other : ¬ "$-1\r\n".toList.isPrefixOf (announced content.length ++ rest) = true := by
    intro nil
    refine announced_not_nil content.length rest (List.isPrefixOf_iff_prefix.mpr ?_)
    have front : "$-1".toList <+: "$-1\r\n".toList := ⟨crlf, rfl⟩
    exact front.trans (List.isPrefixOf_iff_prefix.mp nil)
  have opens : (announced content.length ++ rest).head? = some '$' := rfl
  have total : (content ++ crlf).length = content.length + 2 := by simp [crlf]
  have fits : (content.length : ℤ) < 2 ^ (64 - 1) := by omega
  rw [received_dollar opens, if_neg other, findCrlf_announced]
  dsimp only
  rw [header_announced, stoInt_digits fits]
  dsimp only
  rw [decide_eq_true_eq, List.length_append, length_announced]
  constructor
  · rintro ⟨-, long⟩
    refine begins.eq_of_length_le ?_
    rw [total]
    omega
  · rintro rfl
    rw [total]
    omega

/-- What has come of a bulk reply: part of its header, or the header and more. -/
theorem bulk_parts {content : List Char} (begins : response <+: encode (.bulk content)) :
    '\n' ∉ response ∨
      ∃ rest, response = announced content.length ++ rest ∧ rest <+: content ++ crlf := by
  rcases prefix_parts begins with inHeader | behind
  · by_cases member : '\n' ∈ response
    · have whole : response = announced content.length :=
        (line_complete (digitsLine content.length) (by decide) inHeader).mp member
      exact .inr ⟨[], by rw [whole, List.append_nil], List.nil_prefix⟩
    · exact .inl member
  · exact .inr behind

/-- Bulk replies: the test waits for as many bytes as the header announces. -/
theorem received_bulk {content : List Char} (short : (content.length : ℤ) < 2 ^ 63) :
    Tells received (encode (.bulk content)) := by
  intro response begins nonempty
  rcases bulk_parts begins with absent | ⟨rest, rfl, content_begins⟩
  · have opens : response.head? = some '$' := by
      obtain ⟨first, rest, rfl⟩ := List.exists_cons_of_ne_nil nonempty
      obtain rfl : first = '$' := (List.cons_prefix_cons.mp begins).1
      rfl
    have feed : '\n' ∈ encode (.bulk content) := by simp [encode, crlf]
    rw [received_unfinished opens absent]
    exact ⟨fun told => absurd told Bool.false_ne_true, fun same => absurd (same ▸ feed) absent⟩
  · rw [received_content short content_begins]
    exact List.append_right_inj (announced content.length) |>.symm

/-! ## Replies -/

/-- The replies of the commands of the service: a bulk string is shorter than
`2 ^ 31`. -/
def Short : Reply → Prop
  | .bulk content => content.length < 2 ^ 31
  | _ => True

/-- **The test tells replies** from what arrives before them. -/
theorem received_tells {reply : Reply} (short : Short reply) : Tells received (encode reply) := by
  cases reply with
  | simple text => exact received_line text (.inl rfl)
  | error text => exact received_line text (.inr (.inl rfl))
  | integer n =>
    have line : Tells received (':' :: (integerLine n).val ++ crlf) :=
      received_line (integerLine n) (.inr (.inr rfl))
    rwa [integerLine_val] at line
  | nil => exact received_nil
  | bulk content =>
    have short : content.length < 2 ^ 31 := short
    exact received_bulk (by omega)

/-- What `get` makes of a bulk reply. -/
theorem decodeGet_bulk {content : List Char} (short : content.length < 2 ^ 31)
    (nonempty : content ≠ []) : decodeGet (encode (.bulk content)) = .found content := by
  have parts : encode (.bulk content) = announced content.length ++ (content ++ crlf) := rfl
  have opens : "$".toList.isPrefixOf (announced content.length ++ (content ++ crlf)) = true := rfl
  have positive : 0 < content.length := List.length_pos_iff.mpr nonempty
  have fits : (content.length : ℤ) < 2 ^ (32 - 1) := by omega
  rw [parts, decodeGet, if_pos opens, if_neg (announced_not_nil _ _), findCrlf_announced]
  dsimp only
  rw [header_announced, stoInt_digits fits]
  dsimp only
  have enough : 0 < (content.length : ℤ) ∧
      (((Nat.toDigits 10 content.length).length + 1 : ℕ) : ℤ) + 2 + content.length ≤
        (announced content.length ++ (content ++ crlf)).length := by
    simp only [List.length_append, length_announced]
    omega
  have start : (Nat.toDigits 10 content.length).length + 1 + 2 =
      (announced content.length).length := by rw [length_announced]
  rw [if_pos enough, start, List.drop_left, Int.toNat_natCast, List.take_left]

theorem decodeGet_nil : decodeGet (encode .nil) = .missing := by decide

/-! ## Chunks -/

variable {reply : Reply} {chunks : List (List Char)} {ping : Fate} {key : String}
  {d : Deployment}

/-- A reply is read whole. -/
theorem readReply_whole (short : Short reply) (nonempty : ∀ chunk ∈ chunks, chunk ≠ [])
    (whole : chunks.flatten = encode reply) (more : List (List Char)) :
    readReply (chunks ++ more) = (encode reply, more) := by
  have some_chunk : chunks ≠ [] := by
    rintro rfl
    cases reply <;> exact absurd whole nofun
  exact receive_whole (received_tells short) nonempty some_chunk whole more

/-- `get` on the bytes of an available server. -/
theorem getBytes_available (available : (checkRedisAvailability ping d).1 = true) :
    getBytes ping chunks key d =
      match decodeGet (readReply chunks).1 with
      | .found value => (some (String.ofList value), (checkRedisAvailability ping d).2)
      | .missing => (none, (checkRedisAvailability ping d).2)
      | .unclear => getFromMemory key (checkRedisAvailability ping d).2 := by
  unfold getBytes
  generalize checkRedisAvailability ping d = checked at available
  obtain ⟨answer, d⟩ := checked
  obtain rfl : answer = true := available
  rfl

/-- **Replies are read whole.** However a reply is cut into chunks, the loop
stops when it has all of it, with what comes behind it unread; and `get` returns
exactly the bytes of a bulk string, and nothing for nil. -/
theorem replies_read_whole (reply : Reply) (short : Short reply) (chunks : List (List Char))
    (nonempty : ∀ chunk ∈ chunks, chunk ≠ []) (whole : chunks.flatten = encode reply)
    (more : List (List Char)) :
    readReply (chunks ++ more) = (encode reply, more) ∧
      ∀ ping key d, (checkRedisAvailability ping d).1 = true →
        (∀ content, reply = .bulk content → content ≠ [] →
          (getBytes ping (chunks ++ more) key d).1 = some (String.ofList content)) ∧
        (reply = .nil → (getBytes ping (chunks ++ more) key d).1 = none) := by
  have read := readReply_whole short nonempty whole more
  refine ⟨read, fun ping key d available => ?_⟩
  rw [getBytes_available available, read]
  constructor
  · rintro content rfl some_bytes
    rw [decodeGet_bulk short some_bytes]
  · rintro rfl
    rw [decodeGet_nil]

/-- A value with a line break of its own, cut between its bytes. -/
theorem replies_read_whole_sample :
    (getBytes .answered ["$4\r".toList, "\na\r\n".toList, "b\r".toList, "\n".toList] "key"
      { clock := 0, service := { host := "redis", useRedis := true } }).1 =
        some (String.ofList "a\r\nb".toList) :=
  ((replies_read_whole (.bulk "a\r\nb".toList) (show 4 < 2 ^ 31 by decide)
    ["$4\r".toList, "\na\r\n".toList, "b\r".toList, "\n".toList] (by decide) rfl []).2
    .answered "key" { clock := 0, service := { host := "redis", useRedis := true } } rfl).1
      _ rfl (by decide)

/-! ## The commands of the service -/

/-- The lines of the service's replies. -/
def pongLine : Line := ⟨"PONG".toList, by decide, by decide⟩

def okLine : Line := ⟨"OK".toList, by decide, by decide⟩

/-- A reply of the server on the wire; what an error says is left open. -/
def wire (what : Line) : RedisCacheService.Reply → Reply
  | .pong => .simple pongLine
  | .ok => .simple okLine
  | .nil => .nil
  | .bulk value => .bulk value.toList
  | .integer n => .integer n
  | .error => .error what

/-- What an available server answers to a `GET`. -/
def served (ping : Fate) (key : String) (d : Deployment) : RedisCacheService.Reply :=
  (serve (checkRedisAvailability ping d).2.clock (checkRedisAvailability ping d).2.redis
    (.get key)).1

/-- A `GET` is answered with a value or with nil, and changes nothing. -/
theorem send_get (key : String) (d : Deployment) :
    (∃ value, (d.send .answered (.get key)) = (some (.bulk value), d) ∧
        (serve d.clock d.redis (.get key)).1 = .bulk value) ∨
      ((d.send .answered (.get key)) = (some .nil, d) ∧
        (serve d.clock d.redis (.get key)).1 = .nil) := by
  cases found : d.redis.lookup key d.clock with
  | some value =>
    have answers : serve d.clock d.redis (.get key) = (.bulk value, d.redis) := by
      simp [serve, found]
    exact .inl ⟨value, by rw [Deployment.send, RedisCacheService.sendRedisCommand, answers],
      by rw [answers]⟩
  | none =>
    have answers : serve d.clock d.redis (.get key) = (.nil, d.redis) := by simp [serve, found]
    exact .inr ⟨by rw [Deployment.send, RedisCacheService.sendRedisCommand, answers],
      by rw [answers]⟩

/-- **`get` is what its bytes say**: the service on the commands and replies of
the server is the service on their bytes, in any chunks. -/
theorem get_eq_getBytes {what : Line} (short : Short (wire what (served ping key d)))
    (nonempty : ∀ chunk ∈ chunks, chunk ≠ [])
    (whole : chunks.flatten = encode (wire what (served ping key d))) :
    RedisCacheService.get ⟨ping, .answered⟩ key d = getBytes ping chunks key d := by
  have read := congrArg Prod.fst (readReply_whole short nonempty whole [])
  rw [List.append_nil] at read
  unfold served at read short
  unfold RedisCacheService.get getBytes
  rw [read]
  generalize checkRedisAvailability ping d = checked at short
  obtain ⟨available, d⟩ := checked
  cases available with
  | false => rfl
  | true =>
    dsimp only at short ⊢
    rcases send_get key d with ⟨value, sent, answers⟩ | ⟨sent, answers⟩
    · rw [sent, answers]
      rw [answers] at short
      by_cases empty : value = ""
      · subst empty
        rfl
      · have some_bytes : value.toList ≠ [] := by simpa using empty
        have decoded : decodeGet (encode (wire what (.bulk value))) = .found value.toList :=
          decodeGet_bulk short some_bytes
        rw [decoded]
        simp [empty]
    · rw [sent, answers]
      rfl

end EcfDgii.RedisReplies
