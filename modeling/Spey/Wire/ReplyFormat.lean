import Spey.SMTPResponse
import Spey.Decimal
import Spey.Wire.Lines

/-!
# Replies on the wire

A reply is printed as one string with line feeds in it, which `writeline` turns
into CR LF. For codes of three digits the bytes are the lines of one reply: a
hyphen after the code of every line but the last, and a space there. With code
250 `SMTPResponse::set` takes exactly these lines off a socket, and gives the
continuation that was printed.
-/

namespace Spey.SMTPResponse

/-- The lines of one reply with this code. -/
inductive ReplyLines (code : Nat) : List Bytes → Prop
  | last (t : Bytes) : ReplyLines code [decimal code ++ SP :: t]
  | more (t : Bytes) {ls : List Bytes} (hls : ReplyLines code ls) :
      ReplyLines code ((decimal code ++ byte '-' :: t) :: ls)

/-- Three decimal digits, the first of them no zero. -/
def ThreeDigits (s : Bytes) : Prop :=
  ∃ a b c, s = [a, b, c] ∧ isdigit a ∧ isdigit b ∧ isdigit c ∧ a ≠ byte '0'

/-- The texts of a reply have no line breaks. -/
structure Texts (r : SMTPResponse) : Prop where
  parameter : OneLine r.parameter
  msgoverride : OneLine r.msgoverride
  continuation : ∀ l ∈ r.continuation, OneLine l

/-- What `writeline` emits for the response is one reply, with a line for the
message and one for each line of the continuation. -/
structure WritesReply (r : SMTPResponse) (ls : List Bytes) : Prop where
  digits : ThreeDigits (decimal r.code)
  bytes : Socket.writeline r.string = ls.flatMap fun l => l ++ [CR, LF]
  oneLine : ∀ l ∈ ls, OneLine l
  length : ls.length = 1 + r.continuation.length
  reply : ReplyLines r.code ls

/-- What `writeline` emits for the response is read as a response with the same
code and continuation, whatever comes after it on the socket. -/
def ReadsBack (r : SMTPResponse) : Prop :=
  ∀ (rest : Bytes) (ending : ReadFailure), ∃ reply : Reply,
    read ⟨Socket.writeline r.string ++ rest, ending⟩ = (.ok reply, ⟨rest, ending⟩) ∧
      reply.response.code = r.code ∧ reply.response.continuation = r.continuation

/-! ## Printing -/

theorem statusMessage_oneLine (code : Nat) : OneLine (text (statusMessage code)) := by
  unfold statusMessage
  split <;> decide +kernel

def digitByte (n : Nat) : Byte := UInt8.ofNat (48 + n)

theorem digitChar_byte : ∀ n < 10, UInt8.ofNat (Nat.digitChar n).toNat = digitByte n := by decide

theorem digitByte_spec : ∀ n < 10,
    isdigit (digitByte n) ∧ (digitByte n ≠ CR ∧ digitByte n ≠ LF) ∧
      (1 ≤ n → digitByte n ≠ byte '0') := by
  decide

theorem decimal_code {code : Nat} (hlo : 100 ≤ code) (hhi : code < 1000) : decimal code =
    [digitByte (code / 10 / 10), digitByte (code / 10 % 10), digitByte (code % 10)] := by
  rw [decimal_eq, Nat.toDigits_of_base_le (by decide) (by omega),
    Nat.toDigits_of_base_le (by decide) (by omega), Nat.toDigits_of_lt_base (by omega)]
  simp only [List.map_cons, List.map_nil, List.cons_append, List.nil_append]
  rw [digitChar_byte _ (by omega), digitChar_byte _ (by omega), digitChar_byte _ (by omega)]

theorem decimal_digits {code : Nat} (hlo : 200 ≤ code) (hhi : code ≤ 599) :
    ThreeDigits (decimal code) ∧ OneLine (decimal code) := by
  have ha := digitByte_spec (code / 10 / 10) (by omega)
  have hb := digitByte_spec (code / 10 % 10) (by omega)
  have hc := digitByte_spec (code % 10) (by omega)
  rw [decimal_code (by omega) (by omega)]
  refine ⟨⟨_, _, _, rfl, ha.1, hb.1, hc.1, ha.2.2 (by omega)⟩, ?_⟩
  simp [ha.2.1, hb.2.1, hc.2.1, oneLine_nil]

/-- The line that carries the message. -/
def firstLine (r : SMTPResponse) : Bytes :=
  (if r.parameter ≠ [] then r.parameter ++ text " " else [])
    ++ (if r.msgoverride = [] then text (statusMessage r.code) else r.msgoverride)

theorem firstLine_oneLine {r : SMTPResponse} (hr : r.Texts) : OneLine r.firstLine := by
  have hsp : OneLine (text " ") := by decide
  have hmsg := statusMessage_oneLine r.code
  unfold firstLine
  split_ifs <;> simp [hr.parameter, hr.msgoverride, hsp, hmsg]

/-- The continuation as whole lines. -/
def continuationLines (code : Nat) : List Bytes → List Bytes
  | [] => []
  | [l] => [decimal code ++ SP :: l]
  | l :: l' :: ls => (decimal code ++ byte '-' :: l) :: continuationLines code (l' :: ls)

/-- The separator of the first line. -/
def separator (r : SMTPResponse) : Byte := if r.continuation = [] then SP else byte '-'

def printedLines (r : SMTPResponse) : List Bytes :=
  (decimal r.code ++ separator r :: r.firstLine) :: continuationLines r.code r.continuation

theorem printContinuation_eq (code : Nat) (ls : List Bytes) :
    printContinuation code ls = (continuationLines code ls).flatMap (LF :: ·) := by
  have hlf : text "\n" = [LF] := rfl
  have hsp : text " " = [SP] := rfl
  have hhyphen : text "-" = [byte '-'] := rfl
  induction ls with
  | nil => rfl
  | cons l ls ih =>
    cases ls with
    | nil => simp [printContinuation, continuationLines, hlf, hsp]
    | cons l' ls => simp [printContinuation, continuationLines, ih, hlf, hhyphen]

theorem string_eq (r : SMTPResponse) : r.string = (decimal r.code ++ separator r :: r.firstLine) ++
    (continuationLines r.code r.continuation).flatMap (LF :: ·) := by
  have hsep : (if r.continuation = [] then text " " else text "-") = [separator r] := by
    unfold separator
    split_ifs <;> rfl
  simp only [string, hsep, printContinuation_eq, firstLine, List.append_assoc, List.cons_append,
    List.nil_append]

/-- Lines with line feeds between them go out as CR LF lines. -/
theorem writeline_lines {l : Bytes} {ls : List Bytes} (hl : OneLine l) (hls : ∀ l ∈ ls, OneLine l) :
    Socket.writeline (l ++ ls.flatMap (LF :: ·)) = (l :: ls).flatMap fun l => l ++ [CR, LF] := by
  induction ls generalizing l with
  | nil =>
    rw [List.flatMap_nil, List.append_nil, Socket.writeline_oneLine hl]
    simp
  | cons l' ls ih =>
    have htail := ih (hls l' List.mem_cons_self) fun x hx => hls x (List.mem_cons_of_mem _ hx)
    rw [List.flatMap_cons, List.flatMap_cons, ← htail]
    simp only [Socket.writeline, Socket.encode_append, Socket.encode_oneLine hl, Socket.encode,
      ↓reduceIte, List.cons_append, List.append_assoc, List.nil_append]

theorem continuationLines_oneLine {code : Nat} (hcode : OneLine (decimal code)) {ls : List Bytes}
    (hls : ∀ l ∈ ls, OneLine l) : ∀ l ∈ continuationLines code ls, OneLine l := by
  have hline : ∀ {l} (c : Byte), c ≠ CR ∧ c ≠ LF → l ∈ ls → OneLine (decimal code ++ c :: l) := by
    intro l c hc hl
    rw [oneLine_append, oneLine_cons]
    exact ⟨hcode, hc, hls l hl⟩
  induction ls with
  | nil => exact fun l hl => absurd hl List.not_mem_nil
  | cons l ls ih =>
    cases ls with
    | nil =>
      intro x hx
      obtain rfl := List.mem_singleton.mp hx
      exact hline SP (by decide) List.mem_cons_self
    | cons l' ls =>
      intro x hx
      rcases List.mem_cons.mp hx with rfl | hx
      · exact hline (byte '-') (by decide) List.mem_cons_self
      · exact ih (fun y hy => hls y (List.mem_cons_of_mem _ hy))
          (fun c hc hy => hline c hc (List.mem_cons_of_mem _ hy)) x hx

theorem continuationLines_length (code : Nat) (ls : List Bytes) :
    (continuationLines code ls).length = ls.length := by
  induction ls with
  | nil => rfl
  | cons l ls ih =>
    cases ls with
    | nil => rfl
    | cons l' ls => simp only [continuationLines, List.length_cons, ih]

theorem continuationLines_reply (code : Nat) {ls : List Bytes} (hls : ls ≠ []) :
    ReplyLines code (continuationLines code ls) := by
  induction ls with
  | nil => exact absurd rfl hls
  | cons l ls ih =>
    cases ls with
    | nil => exact .last l
    | cons l' ls => exact .more l (ih (List.cons_ne_nil l' ls))

theorem writesReply {r : SMTPResponse} (hlo : 200 ≤ r.code) (hhi : r.code ≤ 599) (hr : r.Texts) :
    WritesReply r (printedLines r) := by
  have hcode := (decimal_digits hlo hhi).2
  have hsep : separator r ≠ CR ∧ separator r ≠ LF := by
    unfold separator
    split_ifs <;> decide
  have hfirst : OneLine (decimal r.code ++ separator r :: r.firstLine) := by
    rw [oneLine_append, oneLine_cons]
    exact ⟨hcode, hsep, firstLine_oneLine hr⟩
  have hrest := continuationLines_oneLine hcode hr.continuation
  refine ⟨(decimal_digits hlo hhi).1, ?_, ?_, ?_, ?_⟩
  · rw [string_eq, writeline_lines hfirst hrest, printedLines]
  · intro l hl
    rcases List.mem_cons.mp hl with rfl | hl
    · exact hfirst
    · exact hrest l hl
  · rw [printedLines, List.length_cons, continuationLines_length, Nat.add_comm]
  · unfold printedLines separator
    split_ifs with hnil
    · rw [hnil]
      exact .last r.firstLine
    · exact .more r.firstLine (continuationLines_reply r.code hnil)

/-! ## Reading -/

section
variable {a b c : Byte} {t : Bytes} {input rest rest' : Feed} {ls : List Line}

theorem readContinuation_last {d : Byte} (hd : d ≠ byte '-') {h : OneLine (a :: b :: c :: d :: t)}
    (hl : Socket.readline input = (.ok ⟨a :: b :: c :: d :: t, h⟩, rest)) (ht : OneLine t) :
    readContinuation a b c input = (.ok [⟨t, ht⟩], rest) := by
  rw [readContinuation]
  split
  next e rest' he => cases hl.symm.trans he
  next l rest' he =>
    cases hl.symm.trans he
    simp [hd]

theorem readContinuation_more {h : OneLine (a :: b :: c :: byte '-' :: t)}
    (hl : Socket.readline input = (.ok ⟨a :: b :: c :: byte '-' :: t, h⟩, rest)) (ht : OneLine t)
    (hls : readContinuation a b c rest = (.ok ls, rest')) :
    readContinuation a b c input = (.ok (⟨t, ht⟩ :: ls), rest') := by
  rw [readContinuation]
  split
  next e rest' he => cases hl.symm.trans he
  next l rest' he =>
    cases hl.symm.trans he
    simp [hls]

end

/-- The continuation lines of a code are read back, up to the last of them. -/
theorem readContinuation_written {code : Nat} {a b c : Byte} (hcode : decimal code = [a, b, c])
    (hone : OneLine [a, b, c]) {ls : List Bytes} (hne : ls ≠ []) (hls : ∀ l ∈ ls, OneLine l)
    (p : Bytes) (ending : ReadFailure) : ∃ read : List Line, read.map (·.bytes) = ls ∧
      readContinuation a b c
        ⟨(continuationLines code ls).flatMap (fun l => l ++ [CR, LF]) ++ p, ending⟩ =
          (.ok read, ⟨p, ending⟩) := by
  have hline : ∀ {d t}, d ≠ CR ∧ d ≠ LF → OneLine t → OneLine (a :: b :: c :: d :: t) := by
    intro d t hd ht
    simpa [oneLine_nil, ht, hd] using hone
  induction ls with
  | nil => exact absurd rfl hne
  | cons l ls ih =>
    have hl := hls l List.mem_cons_self
    cases ls with
    | nil =>
      have hread := Socket.readline_written (hline (d := SP) (by decide) hl) p ending
      refine ⟨[⟨l, hl⟩], rfl, ?_⟩
      rw [continuationLines, hcode, List.flatMap_singleton]
      exact readContinuation_last (by decide) hread hl
    | cons l' ls =>
      obtain ⟨read, hmap, hread⟩ := ih (List.cons_ne_nil l' ls)
        fun x hx => hls x (List.mem_cons_of_mem _ hx)
      have hfirst := Socket.readline_written (hline (d := byte '-') (by decide) hl)
        ((continuationLines code (l' :: ls)).flatMap (fun l => l ++ [CR, LF]) ++ p) ending
      refine ⟨⟨l, hl⟩ :: read, by rw [List.map_cons, hmap], ?_⟩
      rw [continuationLines, hcode, List.flatMap_cons, List.append_assoc]
      exact readContinuation_more hfirst hl hread

/-- The digits of 250. -/
theorem decimal_250 : decimal (250 : Nat) = [byte '2', byte '5', byte '0'] :=
  decimal_code (by decide) (by decide)

theorem read_single {a b c : Byte} {t : Bytes} {h : OneLine (a :: b :: c :: SP :: t)}
    {input rest : Feed} (hdigits : isdigit a ∧ isdigit b ∧ isdigit c)
    (hl : Socket.readline input = (.ok ⟨a :: b :: c :: SP :: t, h⟩, rest)) :
    ∃ reply : Reply, read input = (.ok reply, rest) ∧
      reply.response.code = status a b c ∧ reply.response.continuation = [] := by
  have hne : SP ≠ byte '-' := by decide
  have hread : read input = read input := rfl
  conv at hread =>
    rhs
    rw [read, hl]
    dsimp only
    rw [dif_neg (not_not.mpr hdigits), if_neg hne, if_pos rfl]
  exact ⟨_, hread, rfl, rfl⟩

theorem read_multi {t : Bytes} {h : OneLine (byte '2' :: byte '5' :: byte '0' :: byte '-' :: t)}
    {input rest rest' : Feed} {ls : List Line}
    (hl : Socket.readline input = (.ok ⟨byte '2' :: byte '5' :: byte '0' :: byte '-' :: t, h⟩, rest))
    (hls : readContinuation (byte '2') (byte '5') (byte '0') rest = (.ok ls, rest')) :
    ∃ reply : Reply, read input = (.ok reply, rest') ∧
      reply.response.code = 250 ∧ reply.response.continuation = ls.map (·.bytes) := by
  have hdigits : ¬ ¬ (isdigit (byte '2') ∧ isdigit (byte '5') ∧ isdigit (byte '0')) := by decide
  have hstatus : status (byte '2') (byte '5') (byte '0') = 250 := by decide
  have hread : read input = read input := rfl
  conv at hread =>
    rhs
    rw [read, hl]
    dsimp only
    rw [dif_neg hdigits, if_pos rfl, dif_pos hstatus, hls]
  exact ⟨_, hread, rfl, rfl⟩

/-- A reply of code 250 is read back from what `writeline` emits for it. -/
theorem readsBack {r : SMTPResponse} (hcode : r.code = 250) (hr : r.Texts) : ReadsBack r := by
  intro rest ending
  have hwrites := writesReply (by omega) (by omega) hr
  have hfirst := hwrites.oneLine _ List.mem_cons_self
  rw [hwrites.bytes, printedLines, List.flatMap_cons, List.append_assoc]
  unfold separator at hfirst ⊢
  rw [hcode] at hfirst ⊢
  split_ifs at hfirst ⊢ with hnil
  · rw [hnil]
    exact read_single (by decide) (Socket.readline_written hfirst _ ending)
  · obtain ⟨ls, hls, hread⟩ := readContinuation_written decimal_250 (by decide) hnil
      hr.continuation rest ending
    obtain ⟨reply, hreply, hsame, hcontinuation⟩ :=
      read_multi (Socket.readline_written hfirst _ ending) hread
    exact ⟨reply, hreply, hsame, hcontinuation.trans hls⟩

end Spey.SMTPResponse
