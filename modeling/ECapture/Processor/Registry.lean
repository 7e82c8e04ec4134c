import ECapture.Processor.Http2

/-!
# The registered parsers

`NewParser` of `pkg/event_processor/iparser.go` visits the registered parsers in the order of a
Go map, which is random, and takes the first whose `detect` accepts the payload. The choice is a
function of the payload when no payload is accepted by two of them.
-/

namespace ECapture.Processor
open Library

/-! ## The first match in any order -/

section

variable {α : Type*} {l : List α} {p : α → Bool}

theorem find?_eq_of_unique {l₁ l₂ : List α} (h₁ : l₁.Perm l) (h₂ : l₂.Perm l)
    (unique : ∀ a ∈ l, ∀ b ∈ l, p a → p b → a = b) : l₁.find? p = l₂.find? p := by
  have matched : ∀ l' : List α, l'.Perm l → ∀ a ∈ l, p a → l'.find? p = some a := by
    intro l' perm a mem pa
    obtain ⟨b, eq⟩ := Option.isSome_iff_exists.mp
      (List.find?_isSome.mpr ⟨a, perm.mem_iff.mpr mem, pa⟩)
    rw [eq, unique b (perm.mem_iff.mp (List.mem_of_find?_eq_some eq)) a mem
      (List.find?_some eq) pa]
  by_cases any : ∃ a ∈ l, p a
  case pos =>
    obtain ⟨a, mem, pa⟩ := any
    rw [matched l₁ h₁ a mem pa, matched l₂ h₂ a mem pa]
  case neg =>
    have none : ∀ l' : List α, l'.Perm l → l'.find? p = none := by
      intro l' perm
      rw [List.find?_eq_none]
      exact fun a mem pa => any ⟨a, perm.mem_iff.mp mem, pa⟩
    rw [none l₁ h₁, none l₂ h₂]

/-- Every element comes first in some order. -/
theorem exists_order_find? [DecidableEq α] {a : α} (mem : a ∈ l) (pa : p a) :
    ∃ l' : List α, l'.Perm l ∧ l'.find? p = some a :=
  ⟨a :: l.erase a, (List.perm_cons_erase mem).symm, List.find?_cons_of_pos pa⟩

end

/-! ## The registry -/

inductive ParserType where
  | null
  | httpRequest
  | http2Request
  | httpResponse
  | http2Response
  | webSocket
  deriving DecidableEq

/-- What `net/http` and `x/net/http2` do for the four parsers. -/
structure Net (ρ σ δ : Type) where
  request : NetHttp ρ
  response : NetHttp σ
  http2 : NetHttp2 δ

variable {ρ σ δ : Type} (net : Net ρ σ δ)

def HTTPRequest.detect (payload : Bytes) : Bool := net.request.parses payload

def HTTPResponse.detect (payload : Bytes) : Bool := net.response.parses payload

def HTTP2Request.detect (payload : Bytes) : Bool :=
  if payload.length < clientPreface.length then false
  else payload.take clientPreface.length = clientPreface

/-- A known frame type and a reserved bit that is not set. -/
def HTTP2Response.detect : Bytes → Bool
  | _ :: _ :: _ :: type :: _ :: s3 :: _ :: _ :: _ :: _ =>
    if Frame.frameContinuation < type then false else s3 >>> 7 = 0
  | _ => false

/-- The `detect` method of a registered parser. -/
def detect : ParserType → Bytes → Bool
  | .httpRequest => HTTPRequest.detect net
  | .httpResponse => HTTPResponse.detect net
  | .http2Request => HTTP2Request.detect
  | .http2Response => HTTP2Response.detect
  | .null => fun _ => false
  | .webSocket => fun _ => false

/-- What the `init` functions register. -/
def registered : List ParserType := [.httpRequest, .httpResponse, .http2Request, .http2Response]

inductive Parser (ρ σ δ : Type) where
  | default (reader : Bytes)
  | httpRequest (hr : HTTPParser ρ)
  | httpResponse (hr : HTTPParser σ)
  | http2Request (h2r : HTTP2Parser δ)
  | http2Response (h2r : HTTP2Parser δ)

def Parser.parserType : Parser ρ σ δ → ParserType
  | .default _ => .null
  | .httpRequest _ => .httpRequest
  | .httpResponse _ => .httpResponse
  | .http2Request _ => .http2Request
  | .http2Response _ => .http2Response

/-- `new` and `Init` for a type of the registry. -/
def newOfType : ParserType → Parser ρ σ δ
  | .httpRequest => .httpRequest .init
  | .httpResponse => .httpResponse .init
  | .http2Request => .http2Request (.init net.http2)
  | .http2Response => .http2Response (.init net.http2)
  | _ => .default []

/-- `NewParser`, with the order in which the map is visited. -/
def newParser (order : List ParserType) (payload : Bytes) : Parser ρ σ δ :=
  if payload = [] then .default []
  else
    match order.find? (fun type => detect net type payload) with
    | none => .default []
    | some type => newOfType net type

/-! ## What `net/http` accepts -/

/-- A byte of a token, such as a method. -/
def tokenByte (c : UInt8) : Bool :=
  decide (48 ≤ c ∧ c ≤ 57) || decide (65 ≤ c ∧ c ≤ 90) || decide (97 ≤ c ∧ c ≤ 122) ||
    (str "!#$%&'*+-.^_`|~").contains c

/-- `ReadRequest` accepts a request line (a token, a target without blanks and control bytes, and
a version), and the preface of HTTP/2, as a request with the method PRI. -/
structure NetHttp.ReadsRequests (net : NetHttp ρ) : Prop where
  line : ∀ b, net.parses b → ∃ method target rest,
    b = method ++ 32 :: (target ++ 32 :: (str "HTTP/" ++ rest)) ∧ method ≠ [] ∧
      (∀ c ∈ method, tokenByte c) ∧ target ≠ [] ∧ ∀ c ∈ target, 32 < c
  preface : ∀ rest, net.parses (clientPreface ++ rest)

/-- `ReadResponse` accepts only what begins with a version. -/
structure NetHttp.ReadsResponses (net : NetHttp σ) : Prop where
  line : ∀ b, net.parses b → str "HTTP/" <+: b

/-! ## Which detectors overlap -/

variable {net}

theorem http2Request_detect_iff (b : Bytes) :
    HTTP2Request.detect b = true ↔ clientPreface <+: b := by
  unfold HTTP2Request.detect
  rw [List.prefix_iff_eq_take]
  split
  case isTrue short =>
    simp only [Bool.false_eq_true, false_iff]
    intro eq
    have := congrArg List.length eq
    rw [List.length_take] at this
    omega
  case isFalse => simp [eq_comm]

/-- `HTTP2Response.detect` sees the fourth byte. -/
theorem http2Response_detect_fourth {b : Bytes} {c : UInt8} (h : HTTP2Response.detect b = true)
    (fourth : b[3]? = some c) : c ≤ 9 := by
  unfold HTTP2Response.detect at h
  split at h
  case h_1 =>
    split at h
    case isTrue => simp at h
    case isFalse small =>
      simp only [List.getElem?_cons_succ, List.getElem?_cons_zero, Option.some.injEq] at fourth
      subst fourth
      exact UInt8.not_lt.mp small
  case h_2 => simp at h

theorem tokenByte_gt {c : UInt8} (h : tokenByte c) : 32 < c := by
  have punctuation : ∀ d ∈ str "!#$%&'*+-.^_`|~", 32 < d := by decide +kernel
  simp only [tokenByte, Bool.or_eq_true, decide_eq_true_eq, List.contains_iff_mem] at h
  rcases h with ((h | h) | h) | h
  · grind
  · grind
  · grind
  · exact punctuation c h

/-- The first bytes of a request are no control bytes. -/
theorem request_fourth (laws : net.request.ReadsRequests) {b : Bytes}
    (h : net.request.parses b) : ∃ c, b[3]? = some c ∧ 32 ≤ c := by
  obtain ⟨method, target, rest, rfl, method_ne, token, target_ne, printed⟩ := laws.line b h
  have version : ∀ c ∈ str "HTTP/", 32 ≤ c := by decide +kernel
  have all : ∀ c ∈ method ++ 32 :: (target ++ 32 :: str "HTTP/"), 32 ≤ c := by
    intro c mem
    simp only [List.mem_append, List.mem_cons] at mem
    rcases mem with mem | rfl | mem | rfl | mem
    · exact UInt8.le_of_lt (tokenByte_gt (token c mem))
    · exact UInt8.le_refl _
    · exact UInt8.le_of_lt (printed c mem)
    · exact UInt8.le_refl _
    · exact version c mem
  have long : 3 < (method ++ 32 :: (target ++ 32 :: str "HTTP/")).length := by
    have := List.length_pos_iff.mpr method_ne
    have := List.length_pos_iff.mpr target_ne
    simp only [List.length_append, List.length_cons]
    omega
  refine ⟨_, ?_, all _ (List.getElem_mem long)⟩
  have split : method ++ 32 :: (target ++ 32 :: (str "HTTP/" ++ rest)) =
      (method ++ 32 :: (target ++ 32 :: str "HTTP/")) ++ rest := by simp
  rw [split, List.getElem?_append_left long, List.getElem?_eq_getElem long]

/-- A method has no slash, and a version has no blank before its slash. -/
theorem not_request_and_response (requests : net.request.ReadsRequests)
    (responses : net.response.ReadsResponses) {b : Bytes} (h : net.request.parses b)
    (h' : net.response.parses b) : False := by
  obtain ⟨method, target, rest, eq, method_ne, token, -, -⟩ := requests.line b h
  obtain ⟨t, version⟩ := responses.line b h'
  have slash : tokenByte 47 = false := by decide
  rw [eq] at version
  rcases method with _ | ⟨a, _ | ⟨b, _ | ⟨c, _ | ⟨d, _ | ⟨e, method⟩⟩⟩⟩⟩
  · exact method_ne rfl
  all_goals simp [str] at version
  have := token 47 (by simp [version])
  simp [slash] at this

theorem fourth_of_prefix {front b : Bytes} {c : UInt8} (h : front <+: b)
    (fourth : front[3]? = some c) : b[3]? = some c := by
  obtain ⟨t, rfl⟩ := h
  have bound : 3 < front.length := (List.getElem?_eq_some_iff.mp fourth).1
  rw [List.getElem?_append_left bound, fourth]

/-- Two detectors accept the same bytes only when these begin with the preface. -/
theorem preface_of_two (requests : net.request.ReadsRequests)
    (responses : net.response.ReadsResponses) {b : Bytes} {t t' : ParserType}
    (h : detect net t b = true) (h' : detect net t' b = true) (ne : t ≠ t') :
    clientPreface <+: b := by
  have request_frame : HTTPRequest.detect net b = true → HTTP2Response.detect b = true → False := by
    intro request frame
    obtain ⟨c, fourth, large⟩ := request_fourth requests request
    have := http2Response_detect_fourth frame fourth
    grind
  have response_frame :
      HTTPResponse.detect net b = true → HTTP2Response.detect b = true → False := by
    intro response frame
    have fourth := fourth_of_prefix (c := 80) (responses.line b response) (by decide)
    have := http2Response_detect_fourth frame fourth
    revert this
    decide
  have exclusive : HTTPRequest.detect net b = true → HTTPResponse.detect net b = true → False :=
    not_request_and_response requests responses
  by_contra other
  have kinds : ∀ {t}, detect net t b = true →
      (t = .httpRequest ∧ HTTPRequest.detect net b = true) ∨
      (t = .httpResponse ∧ HTTPResponse.detect net b = true) ∨
      (t = .http2Response ∧ HTTP2Response.detect b = true) := by
    intro t accepted
    cases t with
    | httpRequest => exact .inl ⟨rfl, accepted⟩
    | httpResponse => exact .inr (.inl ⟨rfl, accepted⟩)
    | http2Request => exact absurd ((http2Request_detect_iff b).mp accepted) other
    | http2Response => exact .inr (.inr ⟨rfl, accepted⟩)
    | null => cases accepted
    | webSocket => cases accepted
  rcases kinds h with ⟨rfl, a⟩ | ⟨rfl, a⟩ | ⟨rfl, a⟩
  · rcases kinds h' with ⟨rfl, a'⟩ | ⟨rfl, a'⟩ | ⟨rfl, a'⟩
    · exact ne rfl
    · exact exclusive a a'
    · exact request_frame a a'
  · rcases kinds h' with ⟨rfl, a'⟩ | ⟨rfl, a'⟩ | ⟨rfl, a'⟩
    · exact exclusive a' a
    · exact ne rfl
    · exact response_frame a a'
  · rcases kinds h' with ⟨rfl, a'⟩ | ⟨rfl, a'⟩ | ⟨rfl, a'⟩
    · exact request_frame a' a
    · exact response_frame a' a
    · exact ne rfl

/-! ## The choice -/

theorem parserType_newOfType {t : ParserType} (h : t ∈ registered) :
    (newOfType net t).parserType = t := by
  cases t <;> first | rfl | exact absurd h (by decide)

theorem parserType_newParser {order : List ParserType} (perm : order.Perm registered)
    {payload : Bytes} (nonempty : payload ≠ []) :
    (newParser net order payload).parserType =
      (order.find? fun type => detect net type payload).getD .null := by
  rw [newParser, if_neg nonempty]
  cases eq : order.find? fun type => detect net type payload with
  | none => rfl
  | some t => exact parserType_newOfType (perm.mem_iff.mp (List.mem_of_find?_eq_some eq))

theorem preface_detected (requests : net.request.ReadsRequests) {payload : Bytes}
    (h : clientPreface <+: payload) :
    detect net .httpRequest payload = true ∧ detect net .http2Request payload = true := by
  refine ⟨?_, (http2Request_detect_iff payload).mpr h⟩
  obtain ⟨rest, rfl⟩ := h
  exact requests.preface rest

/-- The type that `NewParser` chooses does not depend on the order exactly when the payload does
not begin with the preface of HTTP/2, and exactly then no two registered parsers accept it. -/
theorem newParser_type_iff (requests : net.request.ReadsRequests)
    (responses : net.response.ReadsResponses) (payload : Bytes) :
    ((∀ order order' : List ParserType, order.Perm registered → order'.Perm registered →
        (newParser net order payload).parserType = (newParser net order' payload).parserType) ↔
      ¬ clientPreface <+: payload) ∧
    ((∀ t ∈ registered, ∀ t' ∈ registered, detect net t payload → detect net t' payload →
        t = t') ↔
      ¬ clientPreface <+: payload) := by
  have unique : ¬ clientPreface <+: payload → ∀ t ∈ registered, ∀ t' ∈ registered,
      detect net t payload → detect net t' payload → t = t' := by
    intro other t _ t' _ h h'
    by_contra ne
    exact other (preface_of_two requests responses h h' ne)
  refine ⟨⟨fun same pre => ?_, fun other order order' perm perm' => ?_⟩, fun same pre => ?_,
    unique⟩
  · obtain ⟨h, h'⟩ := preface_detected requests pre
    have nonempty : payload ≠ [] := by
      rintro rfl
      simp [clientPreface, str] at pre
    obtain ⟨order, perm, first⟩ := exists_order_find? (l := registered)
      (p := fun type => detect net type payload) (a := .httpRequest) (by decide) h
    obtain ⟨order', perm', first'⟩ := exists_order_find? (l := registered)
      (p := fun type => detect net type payload) (a := .http2Request) (by decide) h'
    have eq := same order order' perm perm'
    rw [parserType_newParser perm nonempty, parserType_newParser perm' nonempty, first,
      first'] at eq
    cases eq
  · by_cases empty : payload = []
    · simp [newParser, empty]
    · rw [parserType_newParser perm empty, parserType_newParser perm' empty,
        find?_eq_of_unique perm perm' (unique other)]
  · obtain ⟨h, h'⟩ := preface_detected requests pre
    cases same .httpRequest (by decide) .http2Request (by decide) h h'

/-- The head of the preface, which is a request of its own. -/
def pri : Bytes := str "PRI * HTTP/2.0\r\n\r\n"

/-- A `net/http` that knows two requests. -/
def getOrPri : NetHttp Bytes :=
  { getOnly with
    read := fun s =>
      if get.isPrefixOf s.unread then (some get, ⟨s.unread.drop get.length, []⟩)
      else if pri.isPrefixOf s.unread then (some pri, ⟨s.unread.drop pri.length, []⟩)
      else (none, ⟨[], []⟩)
    proto := fun request => if request = pri then str "HTTP/2.0" else str "HTTP/1.1" }

def okHead : Bytes := str "HTTP/1.1 200 OK\r\n\r\n"

/-- A `net/http` that knows one response. -/
def okOnly : NetHttp Bytes :=
  { getOnly with
    read := fun s =>
      if okHead.isPrefixOf s.unread then (some okHead, ⟨s.unread.drop okHead.length, []⟩)
      else (none, ⟨[], []⟩) }

def smallNet : Net Bytes Bytes Unit := ⟨getOrPri, okOnly, plainHttp2⟩

theorem getOrPri_parses_iff (b : Bytes) : getOrPri.parses b ↔ get <+: b ∨ pri <+: b := by
  simp only [NetHttp.parses, NetHttp.start, getOrPri, List.isPrefixOf_iff_prefix]
  by_cases first : get <+: b <;> by_cases second : pri <+: b <;> simp [first, second]

theorem okOnly_parses_iff (b : Bytes) : okOnly.parses b ↔ okHead <+: b := by
  simp only [NetHttp.parses, NetHttp.start, okOnly, List.isPrefixOf_iff_prefix]
  by_cases first : okHead <+: b
  · simp [first]
  · simp [first]

theorem line_append {line method target version : Bytes}
    (eq : line = method ++ 32 :: (target ++ 32 :: (str "HTTP/" ++ version))) (rest : Bytes) :
    line ++ rest = method ++ 32 :: (target ++ 32 :: (str "HTTP/" ++ (version ++ rest))) := by
  rw [eq]
  simp only [List.append_assoc, List.cons_append]

theorem getOrPri_reads : getOrPri.ReadsRequests where
  line b h := by
    have get_line : get = str "GET" ++ 32 :: (str "/" ++ 32 :: (str "HTTP/" ++
      str "1.1\r\n\r\n")) := by decide +kernel
    have pri_line : pri = str "PRI" ++ 32 :: (str "*" ++ 32 :: (str "HTTP/" ++
      str "2.0\r\n\r\n")) := by decide +kernel
    rcases (getOrPri_parses_iff b).mp h with ⟨rest, rfl⟩ | ⟨rest, rfl⟩
    · exact ⟨str "GET", str "/", str "1.1\r\n\r\n" ++ rest, line_append get_line rest, by decide,
        by decide +kernel, by decide, by decide +kernel⟩
    · exact ⟨str "PRI", str "*", str "2.0\r\n\r\n" ++ rest, line_append pri_line rest, by decide,
        by decide +kernel, by decide, by decide +kernel⟩
  preface rest := by
    have split : clientPreface = pri ++ str "SM\r\n\r\n" := by decide +kernel
    rw [split, List.append_assoc]
    exact (getOrPri_parses_iff _).mpr (.inr (List.prefix_append _ _))

theorem okOnly_reads : okOnly.ReadsResponses where
  line b h := by
    obtain ⟨rest, rfl⟩ := (okOnly_parses_iff b).mp h
    exact ⟨str "1.1 200 OK\r\n\r\n" ++ rest, rfl⟩

theorem newParser_type_get :
    ¬ clientPreface <+: get ∧
      ∀ order order' : List ParserType, order.Perm registered → order'.Perm registered →
        (newParser smallNet order get).parserType = (newParser smallNet order' get).parserType := by
  have other : ¬ clientPreface <+: get := by decide
  have requests : smallNet.request.ReadsRequests := getOrPri_reads
  have responses : smallNet.response.ReadsResponses := okOnly_reads
  exact ⟨other, (newParser_type_iff requests responses get).1.mpr other⟩

/-- The preface goes to either parser of requests, whichever the map has first. -/
theorem preface_either_way :
    (newParser smallNet [.httpRequest, .http2Request, .httpResponse, .http2Response]
        clientPreface).parserType = .httpRequest ∧
      (newParser smallNet [.http2Request, .httpRequest, .httpResponse, .http2Response]
        clientPreface).parserType = .http2Request ∧
      [ParserType.httpRequest, .http2Request, .httpResponse, .http2Response].Perm registered ∧
      [ParserType.http2Request, .httpRequest, .httpResponse, .http2Response].Perm registered := by
  decide +kernel

/-! ## The registry in a worker -/

namespace Parser

def write (net : Net ρ σ δ) (b : Bytes) : Parser ρ σ δ → Parser ρ σ δ
  | .default reader => .default (defaultParser.write b reader)
  | .httpRequest hr => .httpRequest (hr.write net.request b)
  | .httpResponse hr => .httpResponse (hr.write net.response b)
  | .http2Request h2r => .http2Request (h2r.write b)
  | .http2Response h2r => .http2Response (h2r.write b)

def display (net : Net ρ σ δ) : Parser ρ σ δ → Bytes × Parser ρ σ δ
  | .default reader => (defaultParser.display reader, .default reader)
  | .httpRequest hr => (HTTPRequest.display net.request hr).map id .httpRequest
  | .httpResponse hr => (HTTPResponse.display net.response hr).map id .httpResponse
  | .http2Request h2r => (HTTP2Request.display net.http2 h2r).map id .http2Request
  | .http2Response h2r => (HTTP2Response.display net.http2 h2r).map id .http2Response

def reset : Parser ρ σ δ → Parser ρ σ δ
  | .default reader => .default (defaultParser.reset reader)
  | .httpRequest hr => .httpRequest hr.reset
  | .httpResponse hr => .httpResponse hr.reset
  | .http2Request h2r => .http2Request h2r.reset
  | .http2Response h2r => .http2Response h2r.reset

end Parser

/-- The parsers of a worker, with the orders in which the map is visited. -/
def registryParsers (net : Net ρ σ δ) (orders : Nat → List ParserType) :
    Parsers (Parser ρ σ δ) where
  newParser order payload := newParser net (orders order) payload
  write := .write net
  display p := (p.display net).1
  reset p := (p.display net).2.reset

variable {orders : Nat → List ParserType}

theorem embeds_httpRequest :
    Embeds (HTTPRequest.parsers net.request) (registryParsers net orders) .httpRequest :=
  ⟨fun _ _ => rfl, fun _ => rfl, fun _ => rfl⟩

theorem embeds_httpResponse :
    Embeds (HTTPResponse.parsers net.response) (registryParsers net orders) .httpResponse :=
  ⟨fun _ _ => rfl, fun _ => rfl, fun _ => rfl⟩

theorem embeds_http2Request :
    Embeds (HTTP2Request.parsers net.http2) (registryParsers net orders) .http2Request :=
  ⟨fun _ _ => rfl, fun _ => rfl, fun _ => rfl⟩

theorem embeds_http2Response :
    Embeds (HTTP2Response.parsers net.http2) (registryParsers net orders) .http2Response :=
  ⟨fun _ _ => rfl, fun _ => rfl, fun _ => rfl⟩

/-- A parser that `NewParser` makes is a new one of its type. -/
theorem newParser_eq_newOfType {order : List ParserType} {payload : Bytes} {t : ParserType}
    (perm : order.Perm registered) (h : (newParser net order payload).parserType = t)
    (chosen : t ≠ .null) :
    newParser net order payload = newOfType net t ∧ detect net t payload := by
  by_cases empty : payload = []
  · subst empty
    exact absurd h.symm (by simpa [newParser, Parser.parserType] using chosen)
  rw [parserType_newParser perm empty] at h
  cases eq : order.find? fun type => detect net type payload with
  | none =>
    rw [eq] at h
    exact absurd h.symm chosen
  | some t' =>
    rw [eq] at h
    obtain rfl : t' = t := h
    have accepted := List.find?_some eq
    rw [newParser, if_neg empty, eq]
    exact ⟨rfl, accepted⟩

theorem head?_payloads {π : Type} {cfg : Config π} {batches : List (List Event)} :
    (payloads cfg batches).head? =
      ((batches.map (batch cfg)).map Gathered.payload).find? (· ≠ []) := by
  rw [payloads, List.head?_filter]

/-- A worker whose first batch makes a parser of type `t` lives as one with that parser only. -/
theorem serve_of_first {π' : Type} {ps' : Parsers π'} {f : π' → Parser ρ σ δ}
    (embeds : Embeds ps' (registryParsers net orders) f) {t : ParserType} (chosen : t ≠ .null)
    (new : ∀ n b, f (ps'.newParser n b) = newOfType net t) {isHex : Bool} {truncateSize : UInt64}
    {uuid : Bytes} (sock : (uuidParse uuid).lifeCycle = .sock) {order : Nat}
    (perm : (orders order).Perm registered) {batches : List (List Event)}
    (first : ∀ b,
      (payloads ⟨isHex, truncateSize, registryParsers net orders⟩ batches).head? = some b →
      (newParser net (orders order) b).parserType = t) :
    ((EventWorker.newEventWorker uuid).serve ⟨isHex, truncateSize, registryParsers net orders⟩
        order batches).map (fun fl => (fl.payload, fl.out)) =
      ((EventWorker.newEventWorker uuid).serve ⟨isHex, truncateSize, ps'⟩
        order batches).map (fun fl => (fl.payload, fl.out)) := by
  rw [serve_eq_flushes (EventWorker.idle_newEventWorker sock),
    serve_eq_flushes (EventWorker.idle_newEventWorker sock)]
  have made : ∀ b, ((batches.map (batch ⟨isHex, truncateSize, registryParsers net orders⟩)).map
      Gathered.payload).find? (· ≠ []) = some b →
      (registryParsers net orders).newParser order b = f (ps'.newParser order b) := by
    intro b found
    rw [← head?_payloads] at found
    rw [new]
    exact (newParser_eq_newOfType perm (first b found) chosen).1
  have same := flushes_of_first isHex truncateSize embeds made
  change (flushes _ order none _).map _ = (flushes _ order none _).map _
  rw [same, List.map_map]
  rfl

/-- The same for each type: the results on a worker with one parser hold of the real one. -/
theorem serve_registry {t : ParserType} {isHex : Bool} {truncateSize : UInt64} {uuid : Bytes}
    (sock : (uuidParse uuid).lifeCycle = .sock) {order : Nat}
    (perm : (orders order).Perm registered) {batches : List (List Event)}
    (first : ∀ b,
      (payloads ⟨isHex, truncateSize, registryParsers net orders⟩ batches).head? = some b →
      (newParser net (orders order) b).parserType = t) :
    let outs := fun {π : Type} (ps : Parsers π) =>
      ((EventWorker.newEventWorker uuid).serve ⟨isHex, truncateSize, ps⟩ order batches).map
        fun fl => (fl.payload, fl.out)
    (t = .httpRequest →
        outs (registryParsers net orders) = outs (HTTPRequest.parsers net.request)) ∧
      (t = .httpResponse →
        outs (registryParsers net orders) = outs (HTTPResponse.parsers net.response)) ∧
      (t = .http2Request →
        outs (registryParsers net orders) = outs (HTTP2Request.parsers net.http2)) ∧
      (t = .http2Response →
        outs (registryParsers net orders) = outs (HTTP2Response.parsers net.http2)) := by
  refine ⟨?_, ?_, ?_, ?_⟩
  · rintro rfl
    exact serve_of_first embeds_httpRequest (by decide) (fun _ _ => rfl) sock perm first
  · rintro rfl
    exact serve_of_first embeds_httpResponse (by decide) (fun _ _ => rfl) sock perm first
  · rintro rfl
    exact serve_of_first embeds_http2Request (by decide) (fun _ _ => rfl) sock perm first
  · rintro rfl
    exact serve_of_first embeds_http2Response (by decide) (fun _ _ => rfl) sock perm first

end ECapture.Processor
