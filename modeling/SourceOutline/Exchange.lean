import SourceOutline.Response.Encoding
import SourceOutline.Text.Blank

/-!
# Requests and replies

Someone who is connected to the program writes requests, one on a line, and gets a reply to each,
one on a line too. A `Request` is a command, perhaps with parameters, in JSON: it asks for a report
about a text, or whether a text is a program, or whether there is anyone to answer, or that the
program stop. A reply holds the data asked for or says why there is none.

Each line is answered on its own (`Exchange.respond`). A line of blanks gets no reply. A line that
is not text in UTF-8 ends the exchange, and so does a request to stop, once it is answered
(`Exchange.answerLines`). Bytes come in pieces of any size, and `Exchange.State` is what has to be
known from one piece to the next.
-/

namespace SourceOutline

open Json

variable [CharacterNames]

/-- A request. -/
structure Request where
  command : String
  params : Option Json
  deriving Repr

namespace Request

/-- How a request is read. -/
def shape : Reader :=
  .record "CommandReq" [.required "command" .string, .nullable "params" .any]

/-- The request with a plain form. -/
def ofJson? (json : Json) : Option Request := do
  let command ← (← json.member? "command").string?
  let params ← (← json.member? "params").optionOf? some
  pure ⟨command, params⟩

/-- Reads a request. -/
def ofText (text : List Char) : Except Json.Fault Request := do
  let plain ← shape.decode text
  match ofJson? plain with
  | some request => pure request
  | none => throw ⟨.noShape "struct CommandReq", 0⟩

end Request

/-- Why a request is not answered with data. -/
inductive Refusal where
  /-- It is no request; this is what is wrong with it. -/
  | malformed (message : String)
  | missingParams
  | missingSource
  | unknownCommand (command : String)
  deriving Repr, DecidableEq

/-- The wording of each refusal. -/
def Refusal.message : Refusal → String
  | malformed message => "Invalid JSON format: " ++ message
  | missingParams => "Missing params"
  | missingSource => "Missing 'source' param"
  | unknownCommand command => "Unknown command: " ++ command

/-- What becomes of an exchange after a reply. -/
inductive Flow where
  | goOn
  | stop
  deriving Repr, DecidableEq

namespace Request

/-- The source text among the parameters. -/
def source (request : Request) : Except Refusal (List Char) :=
  match request.params with
  | none => throw .missingParams
  | some params =>
    match (params.member? "source").bind Json.string? with
    | some text => pure text.toList
    | none => throw .missingSource

/-- The data that a request asks for, and what becomes of the exchange. -/
def answer (request : Request) : Except Refusal (Json × Flow) :=
  match request.command with
  | "PING" => pure (.string "PONG", .goOn)
  | "ANALYZE" => do
    let source ← request.source
    pure ((AnalysisResponse.ofText source).toJson, .goOn)
  | "VALIDATE" => do
    let source ← request.source
    pure ((ValidationResponse.ofText source).toJson, .goOn)
  | "SHUTDOWN" => pure (.string "Shutting down...", .stop)
  | command => throw (.unknownCommand command)

end Request

namespace Exchange

/-- The data for a line that is trimmed, or why there is none. -/
def outcome (line : List Char) : Except Refusal (Json × Flow) :=
  match Request.ofText line with
  | .ok request => request.answer
  | .error fault => throw (.malformed (fault.message line))

/-- The plain form of a reply. -/
def envelope : Except Refusal (Json × Flow) → Json
  | .ok (data, _) => .object [("status", .string "success"), ("data", data)]
  | .error refusal => .object [("status", .string "error"), ("message", .string refusal.message)]

/-- The reply to a line that is trimmed, with all keys in order, and what becomes of the
exchange. -/
def respond (line : List Char) : String × Flow :=
  let result := outcome line
  let flow :=
    match result with
    | .ok (_, flow) => flow
    | .error _ => .goOn
  ((envelope result).sortKeys.render .compact, flow)

/-- What happens at a line. -/
inductive Turn where
  /-- There is no reply. -/
  | silence
  | reply (text : String) (flow : Flow)
  /-- The exchange ends without a reply. -/
  | hangUp
  deriving Repr, DecidableEq

/-- What happens at a line of bytes. -/
def turn (line : ByteArray) : Turn :=
  match String.fromUTF8? line with
  | none => .hangUp
  | some text =>
    match Text.trim text.toList with
    | [] => .silence
    | c :: rest =>
      let (text, flow) := respond (c :: rest)
      .reply text flow

/-- The replies to lines, in their order, and what becomes of the program if the exchange ends at
one of them. No line behind that one is answered. -/
def answerLines : (lines : List ByteArray) → List String × Option Flow
  | [] => ([], none)
  | line :: rest =>
    match turn line with
    | .silence => answerLines rest
    | .reply text .goOn =>
      let (texts, ending) := answerLines rest
      (text :: texts, ending)
    | .reply text .stop => ([text], some .stop)
    | .hangUp => ([], some .goOn)

/-- Cuts bytes at the line feeds among them: the lines that are complete, the first of which begins
with the bytes that came before, and what there is of the next one. -/
def cutLines (before : ByteArray) : (bytes : List UInt8) → List ByteArray × ByteArray
  | [] => ([], before)
  | byte :: rest =>
    if byte = 10 then
      let (lines, last) := cutLines .empty rest
      (before :: lines, last)
    else cutLines (before.push byte) rest

/-- The bytes that are sent for a reply. -/
def sentBytes (text : String) : ByteArray :=
  (text ++ "\n").toUTF8

/-- How far an exchange is. -/
inductive State where
  /-- Lines are answered. These bytes of the next one have come. -/
  | listening (before : ByteArray)
  /-- No more lines are answered. -/
  | ended (flow : Flow)

namespace State

/-- Nothing has come yet. -/
def start : State :=
  listening .empty

/-- Bytes have come: the lines that are complete with them are answered. -/
def receive : State → ByteArray → List String × State
  | ended flow, _ => ([], ended flow)
  | listening before, bytes =>
    let (lines, last) := cutLines before bytes.data.toList
    match answerLines lines with
    | (texts, none) => (texts, listening last)
    | (texts, some flow) => (texts, ended flow)

/-- No more bytes will come: a last line without a line feed is answered like the others. -/
def close : State → List String × Flow
  | ended flow => ([], flow)
  | listening before =>
    if before.isEmpty then ([], .goOn)
    else
      let (texts, ending) := answerLines [before]
      (texts, ending.getD .goOn)

end State

end Exchange

end SourceOutline
