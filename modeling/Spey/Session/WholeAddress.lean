import Spey.Greylist.Concurrent
import Spey.Recipients
import Spey.Session.OpenRelay

/-!
# What is judged of an address

A recipient goes to the inside server with every byte that the line had, and a line
may have a NUL in it. The statements that judge the recipient get C strings, so they see
what is before the first NUL; an empty sender they see as `(probe)`. The whole recipient is
judged if a NUL hides nothing of it, and two recipients are told apart if they
differ before a NUL.
-/

namespace Spey

open Interaction

namespace Settings

/-- A NUL is the first byte of a part, if there is one in it. -/
def NulLeads (part : Bytes) : Prop := 0 ∈ part → part.head? = some 0
  deriving Decidable

/-- Then the part is seen as a whole, or not at all. -/
theorem nulLeads_iff (part : Bytes) : NulLeads part ↔ cstr part = part ∨ cstr part = [] := by
  constructor
  · intro h
    by_cases hnul : 0 ∈ part
    · obtain ⟨t, rfl⟩ := List.head?_eq_some_iff.mp (h hnul)
      exact .inr (List.takeWhile_cons_of_neg (by decide))
    · exact .inl (cstr_eq hnul)
  · intro h hnul
    rcases h with h | h
    · exact absurd (h.symm ▸ hnul) (zero_not_mem_cstr part)
    · cases part with
      | nil => cases hnul
      | cons c t =>
        by_cases hc : c = 0
        · rw [hc, List.head?_cons]
        · rw [cstr, List.takeWhile_cons_of_pos (by simpa using hc)] at h
          cases h

/-- `testacceptance` accepts only what a row says of the whole recipient. -/
def Judges (recipient : Bytes) : Prop :=
  ∀ rows, testacceptance rows recipient = true →
    ∃ row ∈ rows, Matches (addressPart recipient) (domainPart recipient) row

/-- A rule for the visible part of an address, or of a domain, accepts it. -/
theorem accepts_visible (recipient : Bytes) :
    testacceptance [(some (.text (cstr (addressPart recipient))), some (.text []))] recipient = true ∧
      testacceptance [(some (.text []), some (.text (cstr (domainPart recipient))))] recipient =
        true := by
  constructor
  · exact accepts_of_matches (List.pairwise_singleton _ _) List.mem_cons_self ⟨.inr rfl, .inl rfl⟩
  · exact accepts_of_matches (List.pairwise_singleton _ _) List.mem_cons_self ⟨.inl rfl, .inr rfl⟩

theorem judges_iff (recipient : Bytes) : Judges recipient ↔
    NulLeads (addressPart recipient) ∧ NulLeads (domainPart recipient) := by
  rw [nulLeads_iff, nulLeads_iff]
  constructor
  · intro h
    obtain ⟨haddress, hdomain⟩ := accepts_visible recipient
    constructor
    · obtain ⟨row, hrow, hmatches, -⟩ := h _ haddress
      rw [List.mem_singleton.mp hrow] at hmatches
      simpa [or_comm] using hmatches
    · obtain ⟨row, hrow, -, hmatches⟩ := h _ hdomain
      rw [List.mem_singleton.mp hrow] at hmatches
      simpa [or_comm] using hmatches
  · intro ⟨haddress, hdomain⟩ rows haccepts
    obtain ⟨row, hrow, hleft, hright⟩ := matches_of_accepts haccepts
    refine ⟨row, hrow, ?_, ?_⟩
    · rcases haddress with h | h
      · exact h ▸ hleft
      · exact .inl (hleft.elim id fun he => he.trans (by rw [h]))
    · rcases hdomain with h | h
      · exact h ▸ hright
      · exact .inl (hright.elim id fun he => he.trans (by rw [h]))

end Settings

namespace Greylist.Request

variable {LIKE : Bytes → Bytes → Bool} {q q' : Request} {db : Database} {row : Triple}

/-- The row of `triples` that the answer to a request comes from. -/
def found (LIKE : Bytes → Bytes → Bool) (q : Request) (db : Database) : Option Triple :=
  if getint (db.whitelist.countP (Listing.matched LIKE q.key)) ≠ 0 ∨
      getint (db.blacklist.countP (Listing.matched LIKE q.key)) ≠ 0 then none
  else (Table.select Triple.key q.key db.triples).head?

theorem greylist_found (h : q.found LIKE db = some row) :
    greylist LIKE q.quarantinetime q.lastseen q.sender q.fromaddress q.toaddress db =
      seen q.quarantinetime q.lastseen q.key row db := by
  unfold found at h
  split_ifs at h with hlisted
  obtain ⟨hwhite, hblack⟩ := not_or.mp hlisted
  obtain ⟨rows, hrows⟩ := List.head?_eq_some_iff.mp h
  have hkey : q.key = ⟨q.sender, cstr (if q.fromaddress = [] then text "(probe)" else q.fromaddress),
      cstr q.toaddress⟩ := rfl
  simp only [greylist, selectCount, ← hkey, hwhite, hblack, if_false, lookup, hrows]

theorem found_key (h : q.found LIKE db = some row) : row.key = q.key := by
  unfold found at h
  split_ifs at h
  have hmem := List.mem_of_head? h
  simpa [Table.select] using (List.mem_filter.mp hmem).2

/-- Two requests that are filed under one key share its record. -/
theorem share_iff (P : Prop) :
    (∀ db row, q.found LIKE db = some row → q'.found LIKE db = some row → P) ↔
      (q.key = q'.key → P) := by
  constructor
  · intro h hkey
    have hfound : q.found LIKE (.ofTriples [⟨q.key, 1, 0, 0⟩]) = some ⟨q.key, 1, 0, 0⟩ := by
      simp [found, Database.ofTriples, Table.select, getint]
    have hfound' : q'.found LIKE (.ofTriples [⟨q.key, 1, 0, 0⟩]) = some ⟨q.key, 1, 0, 0⟩ := by
      simp [found, Database.ofTriples, Table.select, getint, hkey]
    exact h _ _ hfound hfound'
  · intro h db row hfound hfound'
    exact h ((found_key hfound).symm.trans (found_key hfound'))

end Greylist.Request

/-- The network, sender and recipient that `greylist` answers for. -/
@[simp] def consultation : Event Ans → Option (UInt32 × Bytes × Bytes)
  | ⟨.greylist network sender recipient, some _⟩ => some (network, sender, recipient)
  | _ => none

theorem consultation_of_consults {ctx : Context} {recipient : Bytes} {e : Event Ans} {past : Log}
    (h : consults ctx recipient e past) :
    ∃ sender, consultation e = some (network24 ctx.address, sender, recipient) := by
  obtain ⟨c, answer⟩ := e
  cases c with
  | greylist network sender a =>
    cases answer with
    | none => cases h
    | some verdict => exact ⟨sender, by rw [consultation, h.1, h.2]⟩
  | _ => cases h

/-- A recipient that goes to the inside server in a run of a session whose client is neither
trusted nor authenticated, with the sender that it was greylisted with. -/
structure Forwarded where
  ctx : Context
  rounds : Nat
  result : Except Exn Unit
  session : Session
  history : Log
  run : (process ctx rounds).Ends {} [] result session history
  event : Event Ans
  past : Log
  suffix : event :: past <:+ history
  recipient : Bytes
  relayed : relays event = some recipient
  untrusted : ¬ Once trusted past
  unauthenticated : ¬ Since (evidence ctx) handshake past
  sender : Bytes
  consulted : Since (fun e _ => consultation e = some (network24 ctx.address, sender, recipient))
    commandRead past

namespace Forwarded

variable {x y : Forwarded} {LIKE : Bytes → Bytes → Bool}

/-- The call of `greylist`, at some time. -/
def request (x : Forwarded) (lastseen : Int) : Greylist.Request where
  quarantinetime := x.ctx.settings.quarantinetime
  lastseen := lastseen
  sender := network24 x.ctx.address
  fromaddress := x.sender
  toaddress := x.recipient

/-- The recipient was accepted with every byte that is forwarded, and for what a row says of
all of it. -/
structure Judged (x : Forwarded) : Prop where
  accepted : Since (accepts x.recipient) commandRead x.past
  whole : Settings.Judges x.recipient

/-- Both recipients are judged, and they have a record in common only if they are the same. -/
structure Whole (LIKE : Bytes → Bytes → Bool) (x y : Forwarded) : Prop where
  left : x.Judged
  right : y.Judged
  apart : ∀ lastseen lastseen' db row, (x.request lastseen).found LIKE db = some row →
    (y.request lastseen').found LIKE db = some row → x.recipient = y.recipient ∧ x.sender = y.sender

/-- A NUL in the recipient is the first byte of its address or of its domain. -/
def NulsLead (x : Forwarded) : Prop :=
  Settings.NulLeads (Settings.addressPart x.recipient) ∧
    Settings.NulLeads (Settings.domainPart x.recipient)
  deriving Decidable

/-- An empty sender is a probe. -/
def name (sender : Bytes) : Bytes := if sender = [] then text "(probe)" else sender

/-- The two come from one network, and differ at most behind a NUL. -/
structure Alike (x y : Forwarded) : Prop where
  network : network24 x.ctx.address = network24 y.ctx.address
  recipient : cstr x.recipient = cstr y.recipient
  sender : cstr (name x.sender) = cstr (name y.sender)

theorem permitted (x : Forwarded) : Permitted x.ctx x.recipient x.past := by
  have hrule := (OpenRelay.valid x.ctx x.rounds).process x.run
  exact (Always.of_suffix x.suffix hrule).1 x.recipient x.relayed

theorem accepted (x : Forwarded) : Since (accepts x.recipient) commandRead x.past := by
  rcases x.permitted with htrusted | hauthenticated | ⟨-, haccepts, -⟩
  · exact absurd htrusted.once x.untrusted
  · exact absurd hauthenticated x.unauthenticated
  · exact haccepts

/-- Every recipient that is forwarded for such a client was greylisted with some sender. -/
theorem exists_sender {ctx : Context} {rounds : Nat} {result : Except Exn Unit} {s : Session}
    {h past : Log} {e : Event Ans} {recipient : Bytes}
    (hrun : (process ctx rounds).Ends {} [] result s h) (hsuffix : e :: past <:+ h)
    (hrelays : relays e = some recipient) (htrusted : ¬ Once trusted past)
    (hauthenticated : ¬ Since (evidence ctx) handshake past) :
    ∃ x : Forwarded, x.ctx = ctx ∧ x.past = past ∧ x.recipient = recipient := by
  have hrule := (OpenRelay.valid ctx rounds).process hrun
  rcases (Always.of_suffix hsuffix hrule).1 recipient hrelays with h | h | ⟨-, -, hconsults⟩
  · exact absurd h.once htrusted
  · exact absurd h hauthenticated
  · obtain ⟨sender, hsender⟩ := hconsults.choose fun _ _ => consultation_of_consults
    exact ⟨⟨ctx, rounds, result, s, h, hrun, e, past, hsuffix, recipient, hrelays, htrusted,
      hauthenticated, sender, hsender⟩, rfl, rfl, rfl⟩

theorem key_eq_iff (x y : Forwarded) (lastseen lastseen' : Int) :
    (x.request lastseen).key = (y.request lastseen').key ↔ x.Alike y := by
  constructor
  · intro h
    obtain ⟨hnetwork, hsender, hrecipient⟩ := Greylist.Key.mk.inj h
    exact ⟨hnetwork, hrecipient, hsender⟩
  · intro h
    exact Greylist.Key.mk.injEq .. ▸ ⟨h.network, h.sender, h.recipient⟩

/-- The two can have a record in common if they are alike, and only then. -/
theorem share_iff (x y : Forwarded) (P : Prop) :
    (∀ lastseen lastseen' db row, (x.request lastseen).found LIKE db = some row →
      (y.request lastseen').found LIKE db = some row → P) ↔ (x.Alike y → P) := by
  constructor
  · intro h halike
    exact (Greylist.Request.share_iff P).mp (h 0 0) ((key_eq_iff x y 0 0).mpr halike)
  · intro h lastseen lastseen'
    exact (Greylist.Request.share_iff P).mpr fun hkey => h ((key_eq_iff x y lastseen lastseen').mp hkey)

theorem whole_of_alike (hx : x.NulsLead) (hy : y.NulsLead)
    (halike : x.Alike y → x.recipient = y.recipient ∧ x.sender = y.sender) : Whole LIKE x y where
  left := ⟨x.accepted, (Settings.judges_iff x.recipient).mpr hx⟩
  right := ⟨y.accepted, (Settings.judges_iff y.recipient).mpr hy⟩
  apart := (share_iff x y _).mpr halike

/-- The whole address of two recipients is judged if and only if a NUL stands at the beginning of
a part or nowhere in it, and the two do not differ behind a NUL only. -/
theorem whole_iff (LIKE : Bytes → Bytes → Bool) (x y : Forwarded) : Whole LIKE x y ↔
    x.NulsLead ∧ y.NulsLead ∧ (x.Alike y → x.recipient = y.recipient ∧ x.sender = y.sender) := by
  constructor
  · intro h
    refine ⟨?_, ?_, (share_iff x y _).mp h.apart⟩
    · exact (Settings.judges_iff x.recipient).mp h.left.whole
    · exact (Settings.judges_iff y.recipient).mp h.right.whole
  · intro ⟨hx, hy, halike⟩
    exact whole_of_alike hx hy halike

/-- No NUL, and a sender that is no probe's name. -/
structure Plain (x : Forwarded) : Prop where
  recipient : 0 ∉ x.recipient
  sender : 0 ∉ x.sender
  named : x.sender ≠ text "(probe)"

theorem Plain.nulsLead (hx : x.Plain) : x.NulsLead := by
  constructor
  · intro hnul
    exact absurd ((List.takeWhile_sublist _).subset hnul) hx.recipient
  · intro hnul
    refine absurd ?_ hx.recipient
    unfold Settings.domainPart at hnul
    split_ifs at hnul
    · exact (List.dropWhile_sublist _).subset (List.mem_of_mem_drop hnul)
    · exact hnul

theorem Plain.name (hx : x.Plain) : cstr (name x.sender) = name x.sender := by
  refine cstr_eq fun hnul => ?_
  unfold Forwarded.name at hnul
  split_ifs at hnul
  · exact absurd hnul (by decide)
  · exact hx.sender hnul

/-- Addresses as they should be are judged as a whole. -/
theorem Plain.whole (hx : x.Plain) (hy : y.Plain) : Whole LIKE x y := by
  refine whole_of_alike hx.nulsLead hy.nulsLead fun halike => ⟨?_, ?_⟩
  · have hrecipient := halike.recipient
    rwa [cstr_eq hx.recipient, cstr_eq hy.recipient] at hrecipient
  · have hsender := halike.sender
    rw [hx.name, hy.name] at hsender
    unfold Forwarded.name at hsender
    split_ifs at hsender with hx₀ hy₀ hy₀
    · rw [hx₀, hy₀]
    · exact absurd hsender.symm hy.named
    · exact absurd hsender hx.named
    · exact hsender

end Forwarded

/-- The last recipient that went to the inside server, and the history before it. -/
def lastForwarded : Log → Option (Bytes × Log)
  | [] => none
  | e :: past => match relays e with
    | some recipient => some (recipient, past)
    | none => lastForwarded past

theorem lastForwarded_suffix {h past : Log} {recipient : Bytes}
    (hlast : lastForwarded h = some (recipient, past)) :
    ∃ e, relays e = some recipient ∧ e :: past <:+ h := by
  induction h with
  | nil => cases hlast
  | cons e h ih =>
    unfold lastForwarded at hlast
    cases he : relays e with
    | none =>
      rw [he] at hlast
      obtain ⟨e', hrelays, hsuffix⟩ := ih hlast
      exact ⟨e', hrelays, hsuffix.trans (List.suffix_cons e h)⟩
    | some a =>
      rw [he] at hlast
      obtain ⟨rfl, rfl⟩ := Prod.mk.inj (Option.some.inj hlast)
      exact ⟨e, he, List.suffix_rfl⟩

/-- A client that sends a bounce to this recipient. -/
def bouncingClient (recipient : String) : World := .ofLines .Accepted
  ["HELO a.b", "MAIL FROM:<>", "RCPT TO:<" ++ recipient ++ ">", "QUIT"]
  ["220 in", "250 ok", "250 ok", "250 ok"]

/-- The bounce is forwarded, for a client without privileges. -/
def forwardsBounce (recipient : String) : Bool :=
  (lastForwarded ((bouncingClient recipient).history (.sample 0 .NoAuth) 9)).any fun p =>
    p.1 = text recipient ∧ ¬ Once trusted p.2 ∧
      Since (fun e _ => consultation e = some (network24 0x7F000001, [], text recipient))
        commandRead p.2

theorem forwarded_bounce {recipient : String} (hbounce : forwardsBounce recipient = true) :
    ∃ x : Forwarded, x.ctx = .sample 0 .NoAuth ∧ x.recipient = text recipient ∧ x.sender = [] := by
  obtain ⟨⟨a, past⟩, hlast, hfacts⟩ := (Option.any_eq_true _ _).mp hbounce
  obtain ⟨rfl, htrusted, hconsulted⟩ := of_decide_eq_true hfacts
  obtain ⟨e, hrelays, hsuffix⟩ := lastForwarded_suffix hlast
  obtain ⟨result, s, hrun⟩ := (bouncingClient recipient).history_ends (.sample 0 .NoAuth) 9
  have hauthenticated : ¬ Since (evidence (.sample 0 .NoAuth)) handshake past := fun hs => by
    obtain ⟨_, _, hevidence⟩ := hs.happened
    exact hevidence
  exact ⟨⟨_, 9, result, s, _, hrun, e, past, hsuffix, _, hrelays, htrusted, hauthenticated, [],
    hconsulted⟩, rfl, rfl, rfl⟩

/-- A rule for all addresses of `a` admits one of another name, and a recipient with a NUL behind it
has the record of the one without. -/
theorem nul_hides :
    (∃ x : Forwarded, x.recipient = text "a\x00x@b" ∧
      Settings.testacceptance [(some (.text (text "a")), some (.text []))] x.recipient = true ∧
      ¬ Settings.Matches (Settings.addressPart x.recipient) (Settings.domainPart x.recipient)
        (some (.text (text "a")), some (.text []))) ∧
      (∃ x y : Forwarded, x.recipient = text "a@b" ∧ y.recipient = text "a@b\x00x" ∧ x.Alike y) ∧
      ¬ ∀ (LIKE : Bytes → Bytes → Bool) (x y : Forwarded), Forwarded.Whole LIKE x y := by
  obtain ⟨x, hctx, hx, hsender⟩ := forwarded_bounce (show forwardsBounce "a@b" by decide +kernel)
  obtain ⟨y, hctx', hy, hsender'⟩ := forwarded_bounce (show forwardsBounce "a@b\x00x" by decide +kernel)
  obtain ⟨z, -, hz, -⟩ := forwarded_bounce (show forwardsBounce "a\x00x@b" by decide +kernel)
  have halike : x.Alike y := by
    refine ⟨by rw [hctx, hctx'], ?_, by rw [hsender, hsender']⟩
    rw [hx, hy]
    decide +kernel
  refine ⟨⟨z, hz, ?_, ?_⟩, ⟨x, y, hx, hy, halike⟩, fun hall => ?_⟩
  · rw [hz]
    decide +kernel
  · rw [hz]
    decide +kernel
  · have hsame := ((Forwarded.share_iff x y _).mp (hall (fun _ _ => false) x y).apart halike).1
    rw [hx, hy] at hsame
    exact absurd hsame (by decide +kernel)

end Spey
