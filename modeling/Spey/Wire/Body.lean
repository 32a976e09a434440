import Spey.Wire.Lines
import Spey.World

/-!
# The transfer of a message body

After an accepted DATA the client's lines are copied to the inside server, up to
and including the first line that is a single dot. `World.copied` is the world
after that; where no such line comes the session ends with the client's stream.
-/

namespace Spey

open Interaction Interaction.Action Socket

def dot : Bytes := text "."

namespace World

/-- Lines that are written to the inside server are taken whole. -/
def Whole (w : World) : Prop := ∀ n item, w.oracle n (.inWriteline item) = true

/-- The world after these lines were copied, with `rest` still to be read. -/
def copied (w : World) (ls : List Bytes) (rest : Bytes) : World :=
  { w with
    client := ⟨rest, w.client.ending⟩
    sent := w.sent ++ ls.flatMap writeline
    tick := w.tick + 2 * ls.length }

theorem copied_cons (w : World) (l : Bytes) (ls : List Bytes) (p rest : Bytes) :
    (w.copied [l] p).copied ls rest = w.copied (l :: ls) rest := by
  simp only [copied, List.flatMap_cons, List.flatMap_nil, List.append_nil, List.append_assoc,
    List.length_cons, List.length_nil]
  congr 1
  omega

end World

section
variable {s : Session} {w : World} {a p rest : Bytes} {ls : List Bytes} {rounds : Nat}

theorem exec_inWriteline (item : Item) : (inWriteline item).exec World.answer s w
    = if w.oracle w.tick (.inWriteline item) then
        ((.ok (), s), { w with sent := w.sent ++ writeline item.string, tick := w.tick + 1 })
      else ((.error .network, s), { w with tick := w.tick + 1 }) := by
  simp only [inWriteline, ask, exec_bind, exec_call, World.answer]
  split
  · rfl
  · rfl

/-- One round copies a line, or it fails to write it. -/
theorem bodyRound_line (s : Session) (ha : LF ∉ a) (hclient : w.client.bytes = a ++ LF :: p) :
    ∃ l : Line, bodyRound.exec World.answer s w
      = if w.oracle (w.tick + 1) (.inWriteline (.bodyLine l)) then
          ((.ok (if dropCR a = dot then some () else none), s), w.copied [dropCR a] p)
        else
          ((.error .network, s), { w with client := ⟨p, w.client.ending⟩, tick := w.tick + 2 }) := by
  obtain ⟨l, hl, hread⟩ := readline_line ha p w.client.ending
  rw [← hclient] at hread
  refine ⟨l, ?_⟩
  simp only [bodyRound, outReadline, ask, exec_bind, exec_call, World.answer, hread, exec_pure,
    exec_inWriteline]
  by_cases hwritten : w.oracle (w.tick + 1) (.inWriteline (.bodyLine l)) = true
  · simp only [hwritten, ↓reduceIte, hl, Item.string]
    rw [World.copied, List.flatMap_singleton, dot]
    split
    · rfl
    · rfl
  · simp only [hwritten, Bool.false_eq_true, ↓reduceIte]

theorem bodyRound_end (hp : LF ∉ w.client.bytes) : bodyRound.exec World.answer s w
    = ((.error w.client.ending.exn, s),
        { w with client := ⟨[], w.client.ending⟩, tick := w.tick + 1 }) := by
  have hread : readline w.client = (.error w.client.ending, ⟨[], w.client.ending⟩) :=
    readline_end hp w.client.ending
  simp only [bodyRound, outReadline, ask, exec_bind, exec_call, World.answer, hread, exec_raise]

/-- Where the loop ends normally, the first line that is a dot was the last one
read. -/
theorem bodyLoop_stops (htakes : Takes w.client.bytes (ls ++ [dot]) rest) (hnot : dot ∉ ls)
    (hok : ((repeatUntil .unfinished bodyRound rounds).exec World.answer s w).1.1 = .ok ()) :
    ((repeatUntil .unfinished bodyRound rounds).exec World.answer s w).2.client.bytes = rest := by
  induction rounds generalizing w ls with
  | zero => cases hok
  | succ rounds ih =>
    cases ls with
    | nil =>
      obtain ⟨a, p, ha, hl, hclient, hp⟩ := htakes.of_cons
      obtain ⟨l, hround⟩ := bodyRound_line s ha hclient
      cases hp
      rw [hl, if_pos rfl] at hround
      split_ifs at hround
      · simp only [exec_repeatUntil, hround, World.copied]
      · simp only [exec_repeatUntil, hround, reduceCtorEq] at hok
    | cons l ls =>
      obtain ⟨a, p, ha, hl, hclient, hp⟩ := htakes.of_cons
      obtain ⟨_, hround⟩ := bodyRound_line s ha hclient
      rw [List.mem_cons, not_or] at hnot
      rw [hl, if_neg (Ne.symm hnot.1)] at hround
      split_ifs at hround
      · simp only [exec_repeatUntil, hround] at hok ⊢
        exact ih hp hnot.2 hok
      · simp only [exec_repeatUntil, hround, reduceCtorEq] at hok

/-- The loop copies the lines before the first dot, and the dot. -/
theorem bodyLoop_dot (hw : w.Whole) (htakes : Takes w.client.bytes (ls ++ [dot]) rest)
    (hnot : dot ∉ ls) (hrounds : ls.length < rounds) :
    (repeatUntil .unfinished bodyRound rounds).exec World.answer s w
      = ((.ok (), s), w.copied (ls ++ [dot]) rest) := by
  induction rounds generalizing w ls with
  | zero => omega
  | succ rounds ih =>
    cases ls with
    | nil =>
      obtain ⟨a, p, ha, hl, hclient, hp⟩ := htakes.of_cons
      obtain ⟨l, hround⟩ := bodyRound_line s ha hclient
      cases hp
      rw [hl, if_pos (hw _ _), if_pos rfl] at hround
      simp only [exec_repeatUntil, hround, List.nil_append]
    | cons l ls =>
      obtain ⟨a, p, ha, hl, hclient, hp⟩ := htakes.of_cons
      obtain ⟨_, hround⟩ := bodyRound_line s ha hclient
      rw [List.mem_cons, not_or] at hnot
      rw [List.length_cons] at hrounds
      rw [hl, if_pos (hw _ _), if_neg (Ne.symm hnot.1)] at hround
      simp only [exec_repeatUntil, hround]
      rw [List.cons_append, ← w.copied_cons l _ p rest]
      have hwhole : (w.copied [l] p).Whole := hw
      exact ih hwhole hp hnot.2 (by omega)

/-- Without a dot the loop copies every line, and ends with the stream. -/
theorem bodyLoop_end (hw : w.Whole) (htakes : Takes w.client.bytes ls rest) (hrest : LF ∉ rest)
    (hnot : dot ∉ ls) (hrounds : ls.length < rounds) :
    ∃ tick, (repeatUntil .unfinished bodyRound rounds).exec World.answer s w
      = ((.error w.client.ending.exn, s), { w.copied ls [] with tick }) := by
  induction rounds generalizing w ls with
  | zero => omega
  | succ rounds ih =>
    cases ls with
    | nil =>
      have hbytes : LF ∉ w.client.bytes := by
        generalize hclient : w.client.bytes = bytes at htakes
        cases htakes
        exact hrest
      refine ⟨w.tick + 1, ?_⟩
      simp only [exec_repeatUntil, bodyRound_end hbytes, World.copied, List.flatMap_nil,
        List.append_nil]
    | cons l ls =>
      obtain ⟨a, p, ha, hl, hclient, hp⟩ := htakes.of_cons
      obtain ⟨_, hround⟩ := bodyRound_line s ha hclient
      rw [List.mem_cons, not_or] at hnot
      rw [List.length_cons] at hrounds
      rw [hl, if_pos (hw _ _), if_neg (Ne.symm hnot.1)] at hround
      have hwhole : (w.copied [l] p).Whole := hw
      obtain ⟨tick, hnext⟩ := ih hwhole hp hnot.2 (by omega)
      refine ⟨tick, ?_⟩
      simp only [exec_repeatUntil, hround]
      rw [← w.copied_cons l ls p []]
      exact hnext

end

/-! ## The header -/

/-- The three lines of the Received header. -/
def receivedLines (name name' : Bytes) (port : UInt16) (sender : Bytes) : List Bytes :=
  [text "Received: from " ++ name ++ text " and verified by Spey",
    text "\tconnected from " ++ (name' ++ text ":" ++ decimal port.toNat),
    text "\twith envelope " ++ sender]

theorem oneLine_repr (n : Nat) : OneLine (text n.repr) := by
  rw [text, Nat.toList_repr]
  intro c hc
  obtain ⟨d, hd, rfl⟩ := List.mem_map.mp hc
  have hdigit := Nat.isDigit_of_mem_toDigits (by decide) (by decide) hd
  obtain ⟨hl, hu⟩ := Char.isDigit_iff_toNat.mp hdigit
  have hzero : '0'.toNat = 48 := rfl
  have hnine : '9'.toNat = 57 := rfl
  constructor
  · intro he
    have hn := congrArg UInt8.toNat he
    rw [UInt8.toNat_ofNat', show CR.toNat = 13 from rfl] at hn
    omega
  · intro he
    have hn := congrArg UInt8.toNat he
    rw [UInt8.toNat_ofNat', show LF.toNat = 10 from rfl] at hn
    omega

theorem oneLine_decimal (n : Int) : OneLine (decimal n) := by
  rw [decimal, Int.toString_eq_repr, Int.repr_eq_if]
  split_ifs
  · exact oneLine_repr _
  · rw [text, String.toList_append, List.map_append, oneLine_append]
    exact ⟨by decide, oneLine_repr _⟩

theorem writeline_line (a b : Bytes) : writeline (a ++ LF :: b) = writeline a ++ writeline b := by
  rw [writeline, encode_append, encode, if_pos rfl, writeline, writeline]
  simp only [List.append_assoc, List.cons_append, List.nil_append]

theorem writeline_received (name name' : Bytes) (port : UInt16) (sender : Bytes) :
    writeline (received name name' port sender)
      = (receivedLines name name' port sender).flatMap writeline := by
  have hconnected : text "\n\tconnected from " = LF :: text "\tconnected from " := by decide
  have henvelope : text "\n\twith envelope " = LF :: text "\twith envelope " := by decide
  have hreceived : received name name' port sender
      = text "Received: from " ++ name ++ text " and verified by Spey"
        ++ LF :: ((text "\tconnected from " ++ (name' ++ text ":" ++ decimal port.toNat))
        ++ LF :: (text "\twith envelope " ++ sender)) := by
    rw [received, hconnected, henvelope]
    simp only [List.append_assoc, List.cons_append]
  rw [hreceived, writeline_line, writeline_line, receivedLines]
  simp only [List.flatMap_cons, List.flatMap_nil, List.append_nil]

theorem append_ne_dot {a : Bytes} (ha : 1 < a.length) (b : Bytes) : a ++ b ≠ dot := by
  intro he
  have hlength := congrArg List.length he
  rw [List.length_append, show dot.length = 1 from rfl] at hlength
  omega

/-- No line of the header is a dot, and none has a line break in it. -/
theorem receivedLines_spec {name name' sender : Bytes} (hname : OneLine name)
    (hname' : OneLine name') (hsender : OneLine sender) (port : UInt16) :
    ∀ l ∈ receivedLines name name' port sender, OneLine l ∧ l ≠ dot := by
  have hport : OneLine (decimal port.toNat) := oneLine_decimal _
  intro l hl
  rw [receivedLines, List.mem_cons, List.mem_cons, List.mem_singleton] at hl
  rcases hl with rfl | rfl | rfl
  · rw [List.append_assoc, oneLine_append, oneLine_append]
    exact ⟨⟨by decide, hname, by decide⟩, append_ne_dot (by decide) _⟩
  · rw [oneLine_append, oneLine_append, oneLine_append]
    exact ⟨⟨by decide, ⟨hname', by decide⟩, hport⟩, append_ne_dot (by decide) _⟩
  · rw [oneLine_append]
    exact ⟨⟨by decide, hsender⟩, append_ne_dot (by decide) _⟩

/-! ## The transfer -/

section
variable {ctx : Context} {s : Session} {w : World}

/-- The resolver's names of the client have no line break in them. -/
def World.Named (w : World) : Prop :=
  ∀ n name, w.oracle n .gethostbyaddr = some name → OneLine name

theorem exec_getname (ctx : Context) (s : Session) (hw : w.Named) : ∃ name tick, OneLine name ∧
    (getname ctx).exec World.answer s w = ((.ok name, s), { w with tick }) := by
  rw [getname]
  split_ifs
  · exact ⟨text "0.0.0.0", w.tick, by decide, rfl⟩
  · cases hname : w.oracle w.tick .gethostbyaddr with
    | some name =>
      refine ⟨name, w.tick + 1, hw _ _ hname, ?_⟩
      simp only [ask, exec_bind, exec_call, World.answer, hname, exec_pure]
    | none =>
      refine ⟨_, w.tick + 1, ?_, by
        simp only [ask, exec_bind, exec_call, World.answer, hname, exec_pure]; rfl⟩
      have hoctet := oneLine_decimal
      have hpoint : OneLine (text ".") := by decide
      simp only [oneLine_append, hoctet, hpoint, and_self]

/-- After the body a reply is read and relayed, and nothing is written inside. -/
theorem exec_bodyResult (x : Proc Unit) (s : Session) (w : World) :
    let loop := x.exec World.answer s w
    let out := (do
      x
      readinside
      writeoutside .bodyResult : Proc Unit).exec World.answer s w
    out.2.client = loop.2.client ∧ out.2.sent = loop.2.sent ∧
      ∀ e, loop.1.1 = .error e → out.1.1 = .error e := by
  dsimp only
  rw [exec_bind]
  rcases x.exec World.answer s w with ⟨⟨e | _, s'⟩, w'⟩
  · exact ⟨rfl, rfl, fun _ he => he⟩
  · simp only [readinside, writeoutside, ask, exec_bind, exec_call, World.answer]
    cases (SMTPResponse.read w'.inside).1 with
    | error e => exact ⟨rfl, rfl, nofun⟩
    | ok r =>
      simp only [exec_update, exec_getState]
      split
      · exact ⟨rfl, rfl, nofun⟩
      · exact ⟨rfl, rfl, nofun⟩

theorem exec_transfer (ctx : Context) (s : Session) (rounds : Nat) (hw : w.Whole) (hnamed : w.Named) :
    ∃ name name' tick, OneLine name ∧ OneLine name' ∧
      (transfer ctx rounds).exec World.answer s w
        = (do
            repeatUntil .unfinished bodyRound rounds
            readinside
            writeoutside .bodyResult : Proc Unit).exec World.answer s
          { w with
            sent := w.sent ++ (receivedLines name name' ctx.port s._from.bytes).flatMap writeline
            tick } := by
  obtain ⟨name, tick, hname, hget⟩ := exec_getname ctx s hnamed
  have hnamed' : World.Named { w with tick } := hnamed
  obtain ⟨name', tick', hname', hget'⟩ := exec_getname ctx s hnamed'
  refine ⟨name, name', tick' + 1, hname, hname', ?_⟩
  rw [transfer, exec_bind, hget]
  dsimp only
  rw [exec_bind, hget']
  dsimp only
  rw [exec_bind, exec_getState]
  dsimp only
  rw [exec_bind, exec_inWriteline, if_pos (hw _ _)]
  dsimp only
  rw [Item.string, writeline_received]

/-- The header and these lines were written, whatever comes after the body. -/
theorem exec_deliver (ctx : Context) (rounds : Nat) (hdata : s.command.cmd = .DATA)
    (hsuccess : s.response.issuccess) (hw : w.Whole) (hnamed : w.Named) :
    ∃ name name' tick, OneLine name ∧ OneLine name' ∧
      let header := receivedLines name name' ctx.port s._from.bytes
      let w₁ := { w with sent := w.sent ++ header.flatMap writeline, tick }
      let loop := (repeatUntil .unfinished bodyRound rounds).exec World.answer s w₁
      let out := (deliver ctx rounds).exec World.answer s w
      out.2.client = loop.2.client ∧ out.2.sent = loop.2.sent ∧
        ∀ e, loop.1.1 = .error e → out.1.1 = .error e := by
  obtain ⟨name, name', tick, hname, hname', htransfer⟩ :=
    exec_transfer ctx s rounds hw hnamed
  refine ⟨name, name', tick, hname, hname', ?_⟩
  have hresult := exec_bodyResult (repeatUntil .unfinished bodyRound rounds) s
    { w with
      sent := w.sent ++ (receivedLines name name' ctx.port s._from.bytes).flatMap writeline
      tick }
  dsimp only at hresult ⊢
  rw [← htransfer] at hresult
  rw [deliver, exec_bind, exec_getState]
  dsimp only
  rw [hdata]
  dsimp only
  rw [if_pos hsuccess, exec_bind]
  generalize (transfer ctx rounds).exec World.answer s w = out at hresult
  obtain ⟨⟨e | _, s'⟩, w'⟩ := out
  · refine ⟨hresult.1, hresult.2.1, fun e' he => ?_⟩
    have hsame : (Except.error e : Except Exn Unit) = .error e' := hresult.2.2 e' he
    cases hsame
    rfl
  · exact ⟨hresult.1, hresult.2.1, fun e' he => nomatch hresult.2.2 e' he⟩

end

/-- The client's first dot was reached: the receiver sees the lines up to it,
and the next byte of the client is the one after it. -/
def Completed (header : List Bytes) (w : World) (new : Bytes) (w' : World) : Prop :=
  ∃ before front, dot ∉ before ∧ lines front = before ++ [dot] ∧ front.getLast? = some LF ∧
    w.client.bytes = front ++ w'.client.bytes ∧ crlfLines new = (header ++ before ++ [dot], [])

/-- The client's stream ended before a dot: the receiver sees no dot either. -/
def Truncated (header : List Bytes) (w : World) (new : Bytes) (r : Except Exn Jump) : Prop :=
  dot ∉ lines w.client.bytes ∧ r = .error w.client.ending.exn ∧
    crlfLines new = (header ++ lines w.client.bytes, []) ∧ dot ∉ (crlfLines new).1

section
variable {header : List Bytes} {w w' : World}

/-- The lines up to the dot were taken from the client and written out. -/
theorem completed_of_takes {before : List Bytes} {rest : Bytes} (hheader : ∀ l ∈ header, OneLine l)
    (htakes : Takes w.client.bytes (before ++ [dot]) rest) (hbefore : dot ∉ before)
    (hclient : w'.client.bytes = rest) :
    Completed header w ((header ++ (before ++ [dot])).flatMap writeline) w' := by
  obtain ⟨front, hfront, hcomplete, hlast⟩ := htakes.front
  have hone : ∀ l ∈ header ++ (before ++ [dot]), OneLine l := by
    intro l hl
    rcases List.mem_append.mp hl with hl | hl
    · exact hheader l hl
    · exact htakes.oneLine l hl
  refine ⟨before, front, hbefore, hcomplete, ?_, ?_, ?_⟩
  · rcases hlast with rfl | hlast
    · exact absurd hcomplete.symm (List.append_ne_nil_of_right_ne_nil _ (List.cons_ne_nil _ _))
    · exact hlast
  · rw [hfront, hclient]
  · rw [crlfLines_writeline hone, List.append_assoc]

/-- All the lines of the client were written out, and none of them is a dot. -/
theorem truncated_of_lines {r : Except Exn Jump} (hheader : ∀ l ∈ header, OneLine l)
    (hnot : dot ∉ header) (hdot : dot ∉ lines w.client.bytes)
    (hr : r = .error w.client.ending.exn) :
    Truncated header w ((header ++ lines w.client.bytes).flatMap writeline) r := by
  obtain ⟨rest, htakes, -⟩ := Takes.of_lines (List.append_nil (lines w.client.bytes)).symm
  have hone : ∀ l ∈ header ++ lines w.client.bytes, OneLine l := by
    intro l hl
    rcases List.mem_append.mp hl with hl | hl
    · exact hheader l hl
    · exact htakes.oneLine l hl
  refine ⟨hdot, hr, crlfLines_writeline hone, ?_⟩
  rw [crlfLines_writeline hone, List.mem_append, not_or]
  exact ⟨hnot, hdot⟩

end

/-- The transfer of a message neither loses nor adds a line, and completes no
message by itself. -/
theorem message_transferred (ctx : Context) (rounds : Nat) (s : Session) (w : World)
    (hdata : s.command.cmd = .DATA) (hsuccess : s.response.issuccess) (hw : w.Whole)
    (hnamed : w.Named) (hrounds : (lines w.client.bytes).length < rounds) :
    let out := (deliver ctx rounds).exec World.answer s w
    ∃ name name' new, let header := receivedLines name name' ctx.port s._from.bytes
      dot ∉ header ∧ out.2.sent = w.sent ++ new ∧
        (Completed header w new out.2 ∨ Truncated header w new out.1.1) := by
  dsimp only
  obtain ⟨name, name', tick, hname, hname', hclient, hsent, herror⟩ :=
    exec_deliver ctx rounds hdata hsuccess hw hnamed
  have hheader := receivedLines_spec hname hname' s._from.oneLine ctx.port
  refine ⟨name, name', ?_⟩
  generalize receivedLines name name' ctx.port s._from.bytes = header
    at hclient hsent herror hheader ⊢
  have hone : ∀ l ∈ header, OneLine l := fun l hl => (hheader l hl).1
  have hnot : dot ∉ header := fun hmem => (hheader dot hmem).2 rfl
  by_cases hdot : dot ∈ lines w.client.bytes
  · obtain ⟨before, after, hlines, hbefore⟩ := List.eq_append_cons_of_mem hdot
    rw [← List.singleton_append, ← List.append_assoc] at hlines
    obtain ⟨rest, htakes, -⟩ := Takes.of_lines hlines
    have hlength : before.length < rounds := by
      have h := congrArg List.length hlines
      rw [List.length_append, List.length_append] at h
      omega
    have hloop := bodyLoop_dot (s := s)
      (w := { w with sent := w.sent ++ header.flatMap writeline, tick }) hw htakes hbefore hlength
    rw [hloop] at hclient hsent
    refine ⟨(header ++ (before ++ [dot])).flatMap writeline, hnot, ?_,
      .inl (completed_of_takes hone htakes hbefore ?_)⟩
    · rw [List.flatMap_append, ← List.append_assoc]
      exact hsent
    · rw [hclient]
      rfl
  · obtain ⟨rest, htakes, hrest⟩ := Takes.of_lines (List.append_nil (lines w.client.bytes)).symm
    obtain ⟨tick', hloop⟩ := bodyLoop_end (s := s)
      (w := { w with sent := w.sent ++ header.flatMap writeline, tick }) hw htakes
      (lines_eq_nil.mp hrest) hdot hrounds
    rw [hloop] at hsent herror
    refine ⟨(header ++ lines w.client.bytes).flatMap writeline, hnot, ?_,
      .inr (truncated_of_lines hone hnot hdot (herror _ rfl))⟩
    rw [List.flatMap_append, ← List.append_assoc]
    exact hsent

/-- A client that sends a message and then QUIT, and the session in which its
DATA was accepted. -/
def mailingClient : World :=
  { World.ofLines .Accepted ["Subject: x", "", "a", ".", "QUIT"] [] with inside := .ofLines ["250 ok"] }

def dataAccepted : Session := { command := { cmd := .DATA }, response := { code := 354 } }

theorem mailingClient_transferred :
    (lines mailingClient.client.bytes).length < 9 ∧
      let out := (deliver (.sample 0 .NoAuth) 9).exec World.answer dataAccepted mailingClient
      ∃ name name' new, let header := receivedLines name name' 25 []
        dot ∉ header ∧ out.2.sent = mailingClient.sent ++ new ∧
          (Completed header mailingClient new out.2 ∨ Truncated header mailingClient new out.1.1) :=
  ⟨by decide +kernel, message_transferred (.sample 0 .NoAuth) 9 dataAccepted mailingClient rfl (by decide)
    (fun _ _ => rfl) nofun (by decide +kernel)⟩

end Spey
