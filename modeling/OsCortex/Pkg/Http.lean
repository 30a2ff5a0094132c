import OsCortex.Lib.Bytes

/-!
The HTTP client of `pkg/http.rs`. A call that is still waiting, or that has stopped the kernel by
slicing a header inside a character, has no result.
-/

namespace OsCortex.Http

open Bytes Option

inductive HttpError where
  | connect
  | send
  | recv
  | status (code : Nat)
  | malformed
  | tooLarge
deriving DecidableEq

def maxBodySize : Nat := 8 * 1024 * 1024

def isWhitespace (c : Char) : Bool :=
  let n := c.toNat
  (9 ≤ n && n ≤ 13) || n == 0x20 || n == 0x85 || n == 0xA0 || n == 0x1680 ||
    (0x2000 ≤ n && n ≤ 0x200A) || n == 0x2028 || n == 0x2029 || n == 0x202F || n == 0x205F ||
    n == 0x3000

variable (text : List Char)

def trim : List Char := ((text.dropWhile isWhitespace).reverse.dropWhile isWhitespace).reverse

def splitWhitespace : List (List Char) :=
  (text.splitOnP isWhitespace).filter fun word => !word.isEmpty

def stripReturn (line : List Char) : List Char :=
  if line.getLast? = some '\r' then line.dropLast else line

/-- `str::lines`: a carriage return belongs to the end of a line only before a line feed. -/
def lines : List (List Char) :=
  let pieces := text.splitOn '\n'
  pieces.dropLast.map stripReturn ++ pieces.getLast?.toList.filter fun line => !line.isEmpty

def parseUnsigned (bound : Nat) (text : List Char) : Option Nat :=
  let digits := if text.head? = some '+' then text.tail else text
  if digits = [] then none
  else if digits.all Char.isDigit then
    let value := digits.foldl (fun value digit => value * 10 + (digit.toNat - 48)) 0
    if value ≤ bound then some value else none
  else none

def utf8Length : Nat := (text.map Char.utf8Size).sum

/-- `none` where Rust stops: the offset is inside a character or beyond the end. -/
def splitAtByte : Nat → List Char → Option (List Char × List Char)
  | 0, text => some ([], text)
  | _ + 1, [] => none
  | offset + 1, c :: rest =>
    if c.utf8Size ≤ offset + 1 then
      (splitAtByte (offset + 1 - c.utf8Size) rest).map fun halves => (c :: halves.1, halves.2)
    else none

def parseStatusCode (line : List Char) : Option Nat :=
  match splitWhitespace line with
  | _ :: code :: _ => parseUnsigned (2 ^ 16 - 1) code
  | _ => none

/-- The first line of that name counts; the outer `none` is a stop. -/
def contentLengthIn : List (List Char) → Option (Option Nat)
  | [] => some none
  | line :: rest =>
    if 15 ≤ utf8Length line then
      match splitAtByte 15 line with
      | none => none
      | some (name, value) =>
        if name.map Char.toLower = "content-length:".toList then
          some (parseUnsigned (2 ^ 64 - 1) (trim value))
        else contentLengthIn rest
    else contentLengthIn rest

def parseContentLength (headers : List Char) : Option (Option Nat) :=
  contentLengthIn (lines headers)

def fromUtf8 (bytes : List UInt8) : Option (List Char) :=
  (String.fromUTF8? ⟨bytes.toArray⟩).map String.toList

def findHeaderEnd (data : List UInt8) : Option Nat :=
  (List.range (data.length - 3)).find? fun i => slice data i 4 = [0x0D, 0x0A, 0x0D, 0x0A]

def parseResponse (data : List UInt8) : Option (Except HttpError (List UInt8)) :=
  match findHeaderEnd data with
  | none => some (.error .malformed)
  | some headerEnd =>
    match fromUtf8 (data.take headerEnd) with
    | none => some (.error .malformed)
    | some headers =>
      match (lines headers).head?.bind parseStatusCode with
      | none => some (.error .malformed)
      | some code =>
        if code ≠ 200 then some (.error (.status code))
        else if data.length ≤ headerEnd + 4 then some (.ok [])
        else
          let body := data.drop (headerEnd + 4)
          match parseContentLength headers with
          | none => none
          | some none => some (.ok body)
          | some (some contentLength) =>
            if maxBodySize < contentLength then some (.error .tooLarge)
            else if body.length < contentLength then some (.error .malformed)
            else some (.ok (body.take contentLength))

inductive Received where
  | data (bytes : List UInt8)
  | again
  | closed

/-- How far a request gets: the loops that connect and send have their own limits. -/
inductive Exchange where
  | refused
  | unsent
  | answered (reads : List Received)

def expectedTotal (response : List UInt8) : Option (Except HttpError (Option Nat)) :=
  match findHeaderEnd response with
  | none => some (.ok none)
  | some headerEnd =>
    match fromUtf8 (response.take headerEnd) with
    | none => some (.ok none)
    | some headers =>
      match parseContentLength headers with
      | none => none
      | some none => some (.ok none)
      | some (some contentLength) =>
        if maxBodySize < contentLength then some (.error .tooLarge)
        else some (.ok (some (headerEnd + 4 + contentLength)))

def eagainCap (expected : Option Nat) : Nat := if expected.isSome then 20000 else 1500

def readResponse : List Received → List UInt8 → Nat → Option Nat →
    Option (Except HttpError (List UInt8))
  | [], _, _, _ => none
  | .closed :: _, response, _, _ => some (.ok response)
  | .again :: rest, response, eagain, expected =>
    if eagainCap expected < eagain + 1 then some (.ok response)
    else readResponse rest response (eagain + 1) expected
  | .data bytes :: rest, before, _, expected =>
    if bytes = [] then some (.ok before)
    else
      let response := before ++ bytes
      if maxBodySize + 4096 < response.length then some (.error .tooLarge)
      else
        match (if expected.isSome then some (.ok expected) else expectedTotal response) with
        | none => none
        | some (.error error) => some (.error error)
        | some (.ok expected) =>
          if expected.any fun total => decide (total ≤ response.length) then some (.ok response)
          else readResponse rest response 0 expected

def get : Exchange → Option (Except HttpError (List UInt8))
  | .refused => some (.error .connect)
  | .unsent => some (.error .send)
  | .answered reads =>
    match readResponse reads [] 0 none with
    | none => none
    | some (.error error) => some (.error error)
    | some (.ok response) => parseResponse response

lemma length_readResponse {reads : List Received} {before response : List UInt8} {eagain : Nat}
    {expected : Option Nat} (small : before.length ≤ maxBodySize + 4096)
    (read : readResponse reads before eagain expected = some (.ok response)) :
    response.length ≤ maxBodySize + 4096 := by
  induction reads generalizing before eagain expected with
  | nil => cases read
  | cons first rest ih =>
    cases first with
    | closed =>
      obtain rfl := Except.ok.inj (some.inj read)
      exact small
    | again =>
      rw [readResponse] at read
      split at read
      · obtain rfl := Except.ok.inj (some.inj read)
        exact small
      · exact ih small read
    | data bytes =>
      simp only [readResponse] at read
      split at read
      · obtain rfl := Except.ok.inj (some.inj read)
        exact small
      split at read
      · cases read
      split at read
      · cases read
      · cases read
      split at read
      · obtain rfl := Except.ok.inj (some.inj read)
        omega
      · exact ih (by omega) read

lemma length_parseResponse {data body : List UInt8}
    (parsed : parseResponse data = some (.ok body)) : body.length ≤ data.length := by
  simp only [parseResponse] at parsed
  iterate 4
    split at parsed
    · cases parsed
  split at parsed
  · obtain rfl := Except.ok.inj (some.inj parsed)
    exact Nat.zero_le _
  have dropped : ∀ count, (data.drop count).length ≤ data.length := fun count => by
    rw [List.length_drop]
    omega
  split at parsed
  · cases parsed
  · obtain rfl := Except.ok.inj (some.inj parsed)
    exact dropped _
  split at parsed
  · cases parsed
  split at parsed
  · cases parsed
  · obtain rfl := Except.ok.inj (some.inj parsed)
    exact Nat.le_trans (List.length_take_le' ..) (dropped _)

lemma length_get {exchange : Exchange} {body : List UInt8}
    (answered : get exchange = some (.ok body)) : body.length ≤ maxBodySize + 4096 := by
  cases exchange with
  | refused => cases answered
  | unsent => cases answered
  | answered reads =>
    simp only [get] at answered
    split at answered
    · cases answered
    · cases answered
    rename_i read
    exact Nat.le_trans (length_parseResponse answered) (length_readResponse (Nat.zero_le _) read)

example :
    let header := "HTTP/1.1 200 OK\r\nContent-length: 3\r\n\r\n".toUTF8.toList
    get (.answered [.data header, .again, .data [1, 2, 3, 4]]) = some (.ok [1, 2, 3]) ∧
      get (.answered [.data header, .data [1, 2], .closed]) = some (.error .malformed) := by
  decide +kernel

end OsCortex.Http
