import Spey.Wire.Body

/-!
# Where a message ends

A sender that keeps to the standard stuffs the dots of its lines and ends the
message with a dot of its own. The body loop compares what `readline` gives, so
a line that has a bare LF or a CR in it can look like that dot before its time.
-/

namespace Spey

open Interaction Interaction.Action Socket

/-- A dot in front of a line that begins with one. -/
def stuff (l : Bytes) : Bytes := if l.head? = some (byte '.') then byte '.' :: l else l

/-- A message as it is transmitted. -/
def transmit (message : List Bytes) : Bytes :=
  message.flatMap (fun l => stuff l ++ [CR, LF]) ++ (dot ++ [CR, LF])

/-- What `readline` makes of a line of a message. -/
def pieces (l : Bytes) : List Bytes := (dropCR (stuff l)).splitOn LF

/-- The body loop stops at the end of the message and not before, whatever the
client sends afterwards. -/
def StopsAtEnd (message : List Bytes) : Prop :=
  ∀ (w : World) (s : Session) (rounds : Nat) (later : Bytes),
    w.client.bytes = transmit message ++ later →
    let out := (repeatUntil .unfinished bodyRound rounds).exec World.answer s w
    (out.1.1 = .ok () → out.2.client.bytes = later) ∧
      (w.Whole → (lines w.client.bytes).length < rounds → out.1.1 = .ok ())

theorem takes_line (l q : Bytes) : Takes (stuff l ++ [CR, LF] ++ q) (pieces l) q := by
  have htakes := Takes.of_append (stuff l ++ [CR]) q
  have hdrop : dropCR (stuff l ++ [CR]) = dropCR (stuff l) := by
    rw [dropCR, dropCR, List.filter_append]
    simp
  rw [hdrop, List.append_assoc] at htakes
  rw [List.append_assoc]
  exact htakes

/-- The reader's view of a transmitted message. -/
theorem takes_transmit (message : List Bytes) (later : Bytes) :
    Takes (transmit message ++ later) (message.flatMap pieces ++ [dot]) later := by
  induction message with
  | nil =>
    have hlf : LF ∉ dot ++ [CR] := by decide
    have hdrop : dropCR (dot ++ [CR]) = dot := by decide
    have htakes := Takes.cons hlf (.nil later)
    rw [hdrop] at htakes
    exact htakes
  | cons l message ih =>
    have hbytes : transmit (l :: message) ++ later
        = stuff l ++ [CR, LF] ++ (transmit message ++ later) := by
      rw [transmit, transmit, List.flatMap_cons]
      simp only [List.append_assoc]
    rw [hbytes, List.flatMap_cons, List.append_assoc (pieces l)]
    exact (takes_line l _).append ih

theorem dot_not_mem {message : List Bytes} :
    dot ∉ message.flatMap pieces ↔ ∀ l ∈ message, dot ∉ pieces l := by
  rw [List.mem_flatMap]
  constructor
  · intro h l hl hdot
    exact h ⟨l, hl, hdot⟩
  · rintro h ⟨l, hl, hdot⟩
    exact h l hl hdot

/-- A client that transmits these lines and nothing after them. -/
def transmitter (message : List Bytes) : World :=
  { World.ofLines .Accepted [] [] with client := ⟨transmit message, .network⟩ }

theorem stopsAtEnd_of_clean {message : List Bytes} (hclean : ∀ l ∈ message, dot ∉ pieces l) :
    StopsAtEnd message := by
  intro w s rounds later hclient
  have htakes := takes_transmit message later
  rw [← hclient] at htakes
  have hnot := dot_not_mem.mpr hclean
  refine ⟨bodyLoop_stops htakes hnot, fun hw hrounds => ?_⟩
  rw [htakes.lines_eq, List.length_append, List.length_append] at hrounds
  rw [bodyLoop_dot hw htakes hnot (by omega)]

/-- A piece that is a dot stops the loop before the end. -/
theorem clean_of_stopsAtEnd {message : List Bytes} (hstops : StopsAtEnd message) :
    ∀ l ∈ message, dot ∉ pieces l := by
  rw [← dot_not_mem]
  intro hdot
  obtain ⟨before, after, hpieces, hbefore⟩ := List.eq_append_cons_of_mem hdot
  have htakes := takes_transmit message []
  rw [List.append_nil] at htakes
  have hlines : lines (transmitter message).client.bytes
      = before ++ [dot] ++ (after ++ [dot] ++ lines []) := by
    rw [transmitter, htakes.lines_eq, hpieces]
    simp only [List.append_assoc, List.cons_append, List.nil_append]
  obtain ⟨rest, hfirst, hrest⟩ := Takes.of_lines hlines
  have hloop := bodyLoop_dot (s := {}) (fun _ _ => rfl) hfirst hbefore (Nat.lt_succ_self _)
  have hend := (hstops (transmitter message) {} (before.length + 1) []
    (List.append_nil _).symm).1
  rw [hloop] at hend
  -- the lines after the dot are still there
  obtain rfl : rest = [] := hend rfl
  have hlength := congrArg List.length hrest
  rw [List.length_append, List.length_append] at hlength
  simp [lines] at hlength

/-- The body loop stops at the end of a message exactly where no line of it,
stuffed, without its CR bytes and cut at its bare LF bytes, has a piece that is
a dot. -/
theorem stopsAtEnd_iff (message : List Bytes) :
    StopsAtEnd message ↔ ∀ l ∈ message, dot ∉ pieces l :=
  ⟨clean_of_stopsAtEnd, stopsAtEnd_of_clean⟩

/-- A line with two bare LF bytes around a dot. -/
theorem bare_line_feed_stops :
    ¬ ∀ message : List Bytes, (∀ l ∈ message, ¬ [CR, LF] <:+: l) → StopsAtEnd message := by
  intro hall
  have hstops := hall [text "a\n.\nQUIT"] (by decide +kernel)
  have hdot : dot ∈ pieces (text "a\n.\nQUIT") := by decide +kernel
  exact clean_of_stopsAtEnd hstops _ List.mem_cons_self hdot

end Spey
