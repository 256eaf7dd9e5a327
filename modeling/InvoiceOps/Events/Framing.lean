import InvoiceOps.Lib.Json
import InvoiceOps.Lib.Lines

/-! The text of an event stream: `_sse_message` of `apps/api/main.py` writes it, `parseSseBlock` and the loop of
`consumeJobEvents` and `consumeCaseEvents` read it (`job-events.ts`, `case-events.ts`). The writer cuts the data at
every line break of Python, the reader joins the parts with a line feed. -/

namespace InvoiceOps

/-- `data.splitlines() or [""]` -/
def dataLines (data : List Char) : List (List Char) :=
  if Lines.splitlines data = [] then [[]] else Lines.splitlines data

def sseLines (event data : List Char) (eventId : Option ℤ) : List (List Char) :=
  (eventId.map fun id => "id: ".toList ++ Json.intChars id).toList ++ ["event: ".toList ++ event] ++
    (dataLines data).map ("data: ".toList ++ ·)

def sseMessage (event data : List Char) (eventId : Option ℤ) : List Char :=
  ['\n'].intercalate (sseLines event data eventId) ++ ['\n', '\n']

structure ParsedSseEvent where
  id : Option (List Char)
  event : List Char
  data : List Char
deriving DecidableEq, Repr

/-- The text after the first colon, without one blank at its start. -/
def fieldValue (line : List Char) : List Char :=
  match line.dropWhile (· ≠ ':') with
  | ':' :: ' ' :: value => value
  | ':' :: value => value
  | _ => []

/-- One line of a block; the values of `data` are collected. -/
def parseSseLine (parsed : ParsedSseEvent × List (List Char)) (line : List Char) :
    ParsedSseEvent × List (List Char) :=
  if line = [] ∨ line.head? = some ':' then parsed
  else
    let field := line.takeWhile (· ≠ ':')
    let value := fieldValue line
    if field = "id".toList then ({ parsed.1 with id := some value }, parsed.2)
    else if field = "event".toList then ({ parsed.1 with event := value }, parsed.2)
    else if field = "data".toList then (parsed.1, parsed.2 ++ [value])
    else parsed

def parseSseBlock (block : List Char) : Option ParsedSseEvent :=
  let (parsed, data) := (Lines.splitBreaks block).foldl parseSseLine (⟨none, "message".toList, []⟩, [])
  let parsed := { parsed with data := ['\n'].intercalate data }
  if parsed.data ≠ [] ∨ parsed.event ≠ "message".toList then some parsed else none

section

variable {σ ε : Type} (onEvent : σ → List Char → Except ε σ)

/-- A block of the buffer: the data of an event is handed over, unless it is a heartbeat. -/
def handOver (s : σ) (block : List Char) : Except ε σ :=
  match parseSseBlock block with
  | none => .ok s
  | some parsed => if parsed.event ≠ "heartbeat".toList ∧ parsed.data ≠ [] then onEvent s parsed.data else .ok s

/-- The loop of `consumeJobEvents` and `consumeCaseEvents` over the chunks that are read. What they do with a text,
`JSON.parse`, the schema and the callback, is `onEvent`; an error of it ends the loop. -/
def consumeEvents (s : σ) (chunks : List (List Char)) : Except ε σ := Lines.feed (handOver onEvent) [] s chunks

end

/-- What the server sends: an event name without line breaks and a JSON text, in which the control characters below
U+0020 are escaped. -/
structure SseMessage where
  id : Option ℤ
  event : List Char
  data : List Char
  event_plain : Lines.Plain event
  data_escaped : ∀ c ∈ data, 0x20 ≤ c.toNat
  data_ne_nil : data ≠ []

section

variable (m : SseMessage)

def SseMessage.text : List Char := sseMessage m.event m.data m.id

/-- The text without the empty line at its end. -/
def SseMessage.block : List Char := ['\n'].intercalate (sseLines m.event m.data m.id)

/-- The data as the client joins it. -/
def SseMessage.joined : List Char := ['\n'].intercalate (dataLines m.data)

/-- None of the line breaks of Python from U+0020 on: U+0085, U+2028 and U+2029. -/
def SseMessage.Unbroken : Prop := ∀ c ∈ m.data, c.toNat ≠ 0x85 ∧ c.toNat ≠ 0x2028 ∧ c.toNat ≠ 0x2029

end

section

variable {m : SseMessage}

theorem isBreak_of_mem_dataLines {data line : List Char} (h : line ∈ dataLines data) {c : Char} (hc : c ∈ line) :
    c ∈ data ∧ Lines.isBreak c = false := by
  unfold dataLines at h
  split_ifs at h
  · rw [List.mem_singleton.1 h] at hc
    cases hc
  · exact Lines.mem_splitlines h hc

theorem plain_dataLine {line : List Char} (h : line ∈ dataLines m.data) : Lines.Plain line := by
  intro c hc
  obtain ⟨hmem, -⟩ := isBreak_of_mem_dataLines h hc
  have hlow := m.data_escaped c hmem
  constructor
  · rintro rfl
    exact absurd hlow (by decide)
  · rintro rfl
    exact absurd hlow (by decide)

theorem plain_append {pre line : List Char} (hpre : Lines.Plain pre) (h : Lines.Plain line) :
    Lines.Plain (pre ++ line) := by
  intro c hc
  exact (List.mem_append.1 hc).elim (hpre c) (h c)

theorem plain_intChars (i : ℤ) : Lines.Plain (Json.intChars i) := by
  have hdigits : Lines.Plain (Nat.toDigits 10 i.natAbs) := by
    intro c hc
    have hdigit := Digits.isDigit_toDigits hc
    constructor
    · rintro rfl
      exact absurd hdigit (by decide)
    · rintro rfl
      exact absurd hdigit (by decide)
  unfold Json.intChars
  split_ifs
  · have hsign : Lines.Plain ['-'] := Lines.plain_of_all rfl
    exact plain_append hsign hdigits
  · exact hdigits

theorem plain_line {line : List Char} (h : line ∈ sseLines m.event m.data m.id) : Lines.Plain line ∧ line ≠ [] := by
  simp only [sseLines, List.mem_append, Option.mem_toList, Option.map_eq_some_iff, List.mem_singleton,
    List.mem_map] at h
  rcases h with (⟨id, -, rfl⟩ | rfl) | ⟨line, hline, rfl⟩
  · exact ⟨plain_append (Lines.plain_of_all rfl) (plain_intChars id), by simp⟩
  · exact ⟨plain_append (Lines.plain_of_all rfl) m.event_plain, by simp⟩
  · exact ⟨plain_append (Lines.plain_of_all rfl) (plain_dataLine hline), by simp⟩

theorem sseLines_ne_nil : sseLines m.event m.data m.id ≠ [] := by simp [sseLines]

theorem parseSseLine_id (parsed : ParsedSseEvent × List (List Char)) (value : List Char) :
    parseSseLine parsed ("id: ".toList ++ value) = ({ parsed.1 with id := some value }, parsed.2) := by
  simp [parseSseLine, fieldValue]

theorem parseSseLine_event (parsed : ParsedSseEvent × List (List Char)) (value : List Char) :
    parseSseLine parsed ("event: ".toList ++ value) = ({ parsed.1 with event := value }, parsed.2) := by
  simp [parseSseLine, fieldValue]

theorem parseSseLine_data (parsed : ParsedSseEvent × List (List Char)) (value : List Char) :
    parseSseLine parsed ("data: ".toList ++ value) = (parsed.1, parsed.2 ++ [value]) := by
  simp [parseSseLine, fieldValue]

theorem foldl_parseSseLine_data (parsed : ParsedSseEvent × List (List Char)) (lines : List (List Char)) :
    (lines.map ("data: ".toList ++ ·)).foldl parseSseLine parsed = (parsed.1, parsed.2 ++ lines) := by
  induction lines generalizing parsed with
  | nil => simp
  | cons line lines ih =>
    rw [List.map_cons, List.foldl_cons, parseSseLine_data, ih]
    simp

/-- The client reads the id, the name and the joined data; a message without a name and data is none. -/
theorem parseSseBlock_block : parseSseBlock m.block =
    if m.joined ≠ [] ∨ m.event ≠ "message".toList then some ⟨m.id.map Json.intChars, m.event, m.joined⟩ else none := by
  have hlines : Lines.splitBreaks m.block = sseLines m.event m.data m.id :=
    Lines.splitBreaks_intercalate sseLines_ne_nil fun line hline => (plain_line hline).1
  have hfold : (sseLines m.event m.data m.id).foldl parseSseLine (⟨none, "message".toList, []⟩, []) =
      (⟨m.id.map Json.intChars, m.event, []⟩, dataLines m.data) := by
    rw [sseLines, List.foldl_append, List.foldl_append, foldl_parseSseLine_data, List.foldl_cons, List.foldl_nil,
      parseSseLine_event]
    cases m.id with
    | none => rfl
    | some id => rw [Option.map_some, Option.toList_some, List.foldl_cons, List.foldl_nil, parseSseLine_id]; rfl
  rw [parseSseBlock, hlines, hfold]
  rfl

theorem unbroken_of_joined (h : m.joined = m.data) : m.Unbroken := by
  intro c hc
  have hjoined : c ∈ m.joined := h ▸ hc
  rcases Lines.mem_intercalate hjoined with ⟨line, hline, hmem⟩ | rfl
  · have hbreak := (isBreak_of_mem_dataLines hline hmem).2
    simp only [Lines.isBreak, Bool.or_eq_false_iff, beq_eq_false_iff_ne] at hbreak
    exact ⟨hbreak.1.1.2, hbreak.1.2, hbreak.2⟩
  · decide

theorem joined_of_unbroken (h : m.Unbroken) : m.joined = m.data := by
  have hbreak : ∀ c ∈ m.data, Lines.isBreak c = false := by
    intro c hc
    have hlow := m.data_escaped c hc
    obtain ⟨h1, h2, h3⟩ := h c hc
    simp only [Lines.isBreak, Bool.or_eq_false_iff, Bool.and_eq_false_iff, decide_eq_false_iff_not,
      beq_eq_false_iff_ne]
    omega
  have hlines := Lines.splitlines_eq_singleton m.data_ne_nil hbreak
  rw [SseMessage.joined, dataLines, hlines, if_neg (by simp), List.intercalate_singleton]

theorem joined_eq_iff : m.joined = m.data ↔ m.Unbroken := ⟨unbroken_of_joined, joined_of_unbroken⟩

/-- A message that is handed over. -/
def SseMessage.handed (m : SseMessage) : Bool := decide (m.event ≠ "heartbeat".toList ∧ m.joined ≠ [])

variable {σ ε : Type} {onEvent : σ → List Char → Except ε σ}

theorem handOver_block (s : σ) : handOver onEvent s m.block = if m.handed then onEvent s m.joined else .ok s := by
  unfold handOver SseMessage.handed
  rw [parseSseBlock_block]
  by_cases hjoined : m.joined = []
  · have hnot : ¬ (m.event ≠ "heartbeat".toList ∧ m.joined ≠ []) := fun h => h.2 hjoined
    rw [decide_eq_false hnot]
    split
    · rfl
    · rename_i parsed hparsed
      split at hparsed
      · obtain rfl := Option.some.inj hparsed
        exact if_neg hnot
      · cases hparsed
  · rw [if_pos (Or.inl hjoined)]
    exact (if_congr decide_eq_true_iff rfl rfl).symm

theorem drain_text (rest : List Char) (s : σ) : Lines.drain (handOver onEvent) (m.text ++ rest) s =
    (handOver onEvent s m.block).bind fun s => Lines.drain (handOver onEvent) rest s := by
  refine Lines.drain_some ?_
  rw [SseMessage.text, sseMessage, List.append_assoc]
  exact Lines.searchBoundary_intercalate sseLines_ne_nil (fun line hline => plain_line hline) rest

/-- The loop hands over the joined data of the messages that are no heartbeats, whatever the chunks are. -/
theorem consumeEvents_stream (ms : List SseMessage) {chunks : List (List Char)}
    (hchunks : chunks.flatten = (ms.map (·.text)).flatten) (s : σ) :
    consumeEvents onEvent s chunks = ((ms.filter (·.handed)).map (·.joined)).foldlM onEvent s := by
  rw [consumeEvents, Lines.feed_eq, List.nil_append, hchunks]
  clear hchunks
  induction ms generalizing s with
  | nil =>
    rw [List.map_nil, List.flatten_nil, Lines.drain_none rfl]
    rfl
  | cons m ms ih =>
    rw [List.map_cons, List.flatten_cons, drain_text, handOver_block]
    cases hhanded : m.handed with
    | false =>
      rw [List.filter_cons_of_neg (by simp [hhanded])]
      exact ih s
    | true =>
      rw [List.filter_cons_of_pos hhanded, List.map_cons, List.foldlM_cons, if_pos rfl]
      cases onEvent s m.joined with
      | error e => rfl
      | ok s' => exact ih s'

/-- A callback that keeps the texts it is given. -/
def collect (texts : List (List Char)) (text : List Char) : Except Empty (List (List Char)) := .ok (texts ++ [text])

theorem foldlM_collect (texts new : List (List Char)) : new.foldlM collect texts = .ok (texts ++ new) := by
  induction new generalizing texts with
  | nil =>
    rw [List.append_nil]
    rfl
  | cons text new ih =>
    rw [List.append_cons]
    exact ih (texts ++ [text])

theorem handed_of_unbroken (h : m.Unbroken) (hevent : m.event ≠ "heartbeat".toList) : m.handed = true := by
  refine decide_eq_true ⟨hevent, ?_⟩
  rw [joined_of_unbroken h]
  exact m.data_ne_nil

/-- The texts handed over are those sent exactly when no text is broken and no message is a heartbeat. -/
theorem handed_eq_iff {ms : List SseMessage} : (ms.filter (·.handed)).map (·.joined) = ms.map (·.data) ↔
    ∀ m ∈ ms, m.Unbroken ∧ m.event ≠ "heartbeat".toList := by
  constructor
  · intro h
    have hlength := congrArg List.length h
    rw [List.length_map, List.length_map, List.length_filter_eq_length_iff] at hlength
    rw [List.filter_eq_self.2 hlength, List.map_inj_left] at h
    exact fun m hm => ⟨unbroken_of_joined (h m hm), (of_decide_eq_true (hlength m hm)).1⟩
  · intro h
    rw [List.filter_eq_self.2 fun m hm => handed_of_unbroken (h m hm).1 (h m hm).2]
    exact List.map_congr_left fun m hm => joined_of_unbroken (h m hm).1

end

/-- A block is read back as it was written exactly when its data contains neither U+0085 nor U+2028 nor U+2029. For
every sequence of messages: cut into whatever chunks, the stream makes the loop hand over the data texts that were
sent, one after the other, exactly when that holds of all of them and none is a heartbeat, which the clients skip. -/
theorem sse_round_trip_iff (m : SseMessage) (ms : List SseMessage) :
    (parseSseBlock m.block = some ⟨m.id.map Json.intChars, m.event, m.data⟩ ↔ m.Unbroken) ∧
    ((∀ chunks : List (List Char), chunks.flatten = (ms.map (·.text)).flatten →
        ∀ (σ ε : Type) (onEvent : σ → List Char → Except ε σ) (s : σ),
          consumeEvents onEvent s chunks = (ms.map (·.data)).foldlM onEvent s) ↔
      ∀ m ∈ ms, m.Unbroken ∧ m.event ≠ "heartbeat".toList) := by
  constructor
  · rw [parseSseBlock_block, ← joined_eq_iff]
    constructor
    · intro h
      split at h
      · exact congrArg ParsedSseEvent.data (Option.some.inj h)
      · cases h
    · intro h
      rw [h, if_pos (Or.inl m.data_ne_nil)]
  · rw [← handed_eq_iff]
    constructor
    · intro h
      have hcollect := h [(ms.map (·.text)).flatten] (by simp) _ _ collect []
      rw [consumeEvents_stream ms (by simp), foldlM_collect, foldlM_collect] at hcollect
      simpa using hcollect
    · intro h chunks hchunks σ ε onEvent s
      rw [consumeEvents_stream ms hchunks, h]

theorem escaped_of_all {data : List Char} (h : data.all (fun c => decide (0x20 ≤ c.toNat)) = true) :
    ∀ c ∈ data, 0x20 ≤ c.toNat := fun c hc => of_decide_eq_true (List.all_eq_true.1 h c hc)

/-- An attached file whose name has a line separator in it. -/
def attachedMessage : SseMessage where
  id := some 2
  event := "UPLOAD_ACCEPTED".toList
  data := "\x7b\"filename\":\"order\u2028.pdf\"\x7d".toList
  event_plain := Lines.plain_of_all rfl
  data_escaped := escaped_of_all rfl
  data_ne_nil := by decide

/-- The client gets a line feed inside the name, which is no JSON text. -/
theorem attached_not_read_back :
    parseSseBlock attachedMessage.block = some ⟨some "2".toList, "UPLOAD_ACCEPTED".toList,
      "\x7b\"filename\":\"order\n.pdf\"\x7d".toList⟩ ∧
    consumeEvents collect [] [attachedMessage.text] = .ok ["\x7b\"filename\":\"order\n.pdf\"\x7d".toList] ∧
    attachedMessage.data ≠ "\x7b\"filename\":\"order\n.pdf\"\x7d".toList := by
  have hjoined : attachedMessage.joined = "\x7b\"filename\":\"order\n.pdf\"\x7d".toList := by decide +kernel
  have hhanded : attachedMessage.handed = true := by decide +kernel
  have hstream : [attachedMessage.text].flatten = ([attachedMessage].map (·.text)).flatten := rfl
  refine ⟨by decide +kernel, ?_, by decide⟩
  rw [consumeEvents_stream [attachedMessage] hstream, List.filter_cons_of_pos hhanded, List.filter_nil, List.map_singleton,
    hjoined, foldlM_collect]
  rfl

end InvoiceOps
