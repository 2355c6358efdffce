import ValidatorDays.Failure
import ValidatorDays.Indexer.Codec
import ValidatorDays.Work.Request

namespace ValidatorDays.Http

inductive Method where
  | get
  | post
  deriving DecidableEq, Repr

structure Exchange where
  method : Method
  url : String
  body : Option Json

structure Response where
  status : Nat
  body : String

def trimmedServer (server : String) : String :=
  String.ofList (server.toList.reverse.dropWhile (· == '/')).reverse

def hexUpper (n : Nat) : Char :=
  if n < 10 then Char.ofNat ('0'.toNat + n) else Char.ofNat ('A'.toNat + (n - 10))

def percentByte (b : UInt8) : List Char :=
  let c := Char.ofNat b.toNat
  if c.isAlphanum && b.toNat < 128 then [c]
  else ['%', hexUpper (b.toNat / 16), hexUpper (b.toNat % 16)]

/-- Everything but ASCII letters and digits is encoded. -/
def percentEncoded (s : String) : String :=
  String.ofList (s.toUTF8.toList.flatMap percentByte)

def parameters : List (String × String) → String
  | [] => ""
  | pairs => "?" ++ "&".intercalate
    (pairs.map fun (key, value) => percentEncoded key ++ "=" ++ percentEncoded value)

def url (server path : String) (pairs : List (String × String)) : String :=
  trimmedServer server ++ path ++ parameters pairs

def epochRangeUrl (server path : String) (range : EpochRange) : String :=
  url server path [("from_epoch", range.first.text), ("to_epoch", range.last.text)]

def numbers (ns : List Int) : Json := .list (ns.map .int)

/-- What is sent for a question. Of no blocks nothing is asked. -/
def exchange? (server : String) : IndexerQuery → Option Exchange
  | .balances range =>
    some ⟨.get, epochRangeUrl server "/v1/validators/balance-statistics" range, none⟩
  | .syncDuties range =>
    some ⟨.get, epochRangeUrl server "/v1/validators/sync-duty-statistics" range, none⟩
  | .failedAttestations range =>
    some ⟨.get, epochRangeUrl server "/v1/validators/failed-attestations" range, none⟩
  | .proposerIncome range =>
    some ⟨.get, epochRangeUrl server "/v1/validators/income" range, none⟩
  | .blockRewards [] => none
  | .blockRewards ns =>
    some ⟨.post, url server "/v1/execution/indexed-blocks" [],
      some (.object [("block_numbers", numbers ns)])⟩
  | .blocks range =>
    some ⟨.get, url server "/v1/execution/blocks"
      [("high", intText range.last), ("low", intText range.first)], none⟩
  | .balancesAt indices epoch =>
    some ⟨.post, url server "/v1/validators/balances" [],
      some (.object [("validator_indices", numbers indices), ("epoch", .int epoch.number)])⟩

open Json in
def rows : (q : IndexerQuery) → Decoder q.Rows
  | .balances _ => listOf BalanceSummary.decode
  | .syncDuties _ => listOf SyncDuties.decode
  | .failedAttestations _ => listOf FailedAttestations.decode
  | .proposerIncome _ => listOf ProposerIncome.decode
  | .blockRewards _ => listOf BlockReward.decode
  | .blocks _ => listOf Block.decode
  | .balancesAt .. => listOf ValidatorBalance.decode

def unasked : (q : IndexerQuery) → q.Rows
  | .balances _ | .syncDuties _ | .failedAttestations _ | .proposerIncome _ | .blockRewards _
  | .blocks _ | .balancesAt .. => []

open Json in
def enveloped {α : Type} (decoder : Decoder α) : Decoder α := fun value => do
  match ← membersOf "an answer of the indexer" [.required "data" decoder] value with
  | [data] => decoder data
  | _ => .error (.mismatch (.length 1))

def reasonPhrases : List (Nat × String) :=
  [(100, "Continue"), (101, "Switching Protocols"), (102, "Processing"), (200, "OK"),
    (201, "Created"), (202, "Accepted"), (203, "Non Authoritative Information"),
    (204, "No Content"), (205, "Reset Content"), (206, "Partial Content"), (207, "Multi-Status"),
    (208, "Already Reported"), (226, "IM Used"), (300, "Multiple Choices"),
    (301, "Moved Permanently"), (302, "Found"), (303, "See Other"), (304, "Not Modified"),
    (305, "Use Proxy"), (307, "Temporary Redirect"), (308, "Permanent Redirect"),
    (400, "Bad Request"), (401, "Unauthorized"), (402, "Payment Required"), (403, "Forbidden"),
    (404, "Not Found"), (405, "Method Not Allowed"), (406, "Not Acceptable"),
    (407, "Proxy Authentication Required"), (408, "Request Timeout"), (409, "Conflict"),
    (410, "Gone"), (411, "Length Required"), (412, "Precondition Failed"),
    (413, "Payload Too Large"), (414, "URI Too Long"), (415, "Unsupported Media Type"),
    (416, "Range Not Satisfiable"), (417, "Expectation Failed"), (418, "I'm a teapot"),
    (421, "Misdirected Request"), (422, "Unprocessable Entity"), (423, "Locked"),
    (424, "Failed Dependency"), (425, "Too Early"), (426, "Upgrade Required"),
    (428, "Precondition Required"), (429, "Too Many Requests"),
    (431, "Request Header Fields Too Large"), (451, "Unavailable For Legal Reasons"),
    (500, "Internal Server Error"), (501, "Not Implemented"), (502, "Bad Gateway"),
    (503, "Service Unavailable"), (504, "Gateway Timeout"), (505, "HTTP Version Not Supported"),
    (506, "Variant Also Negotiates"), (507, "Insufficient Storage"), (508, "Loop Detected"),
    (510, "Not Extended"), (511, "Network Authentication Required")]

def statusText (status : Nat) : String :=
  intText status ++ " " ++
    ((reasonPhrases.lookup status).getD "<unknown status code>")

/-- Only a plain success has rows. -/
def decode (q : IndexerQuery) (url : String) (response : Response) : Except Report q.Rows :=
  if response.status = 200 then
    match Json.decodeText (enveloped (rows q)) response.body with
    | .ok rows => .ok rows
    | .error _ => .error ⟨["error decoding response body"]⟩
  else
    .error ⟨["indexer request failed. status = " ++ statusText response.status ++
      " url = " ++ url]⟩

end ValidatorDays.Http
