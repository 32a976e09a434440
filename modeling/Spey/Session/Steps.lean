import Spey.MessageProcessor

/-!
# What each part of a session does

One rule for each part of `process`: its weakest precondition, written out over
the answers it can get. The rules say everything a part can do; the proofs about
whole sessions use them and do not look into the parts again.
-/

namespace Spey

open Interaction Interaction.Action

variable {ctx : Context} {s : Session} {h : Log}

@[simp] theorem forall_except {ε α : Type} {P : Except ε α → Prop} :
    (∀ x, P x) ↔ (∀ e, P (.error e)) ∧ ∀ a, P (.ok a) := by
  constructor
  · intro hP
    exact ⟨fun e => hP _, fun a => hP _⟩
  · rintro ⟨herror, hok⟩ (e | a)
    · exact herror e
    · exact hok a

@[simp] theorem forall_greylistResponse {P : GreylistResponse → Prop} :
    (∀ v, P v) ↔ P .Accepted ∧ P .BlackListed ∧ P .GreyListed := by
  constructor
  · intro hP
    exact ⟨hP _, hP _, hP _⟩
  · rintro ⟨haccepted, hblack, hgrey⟩ (_ | _ | _)
    · exact haccepted
    · exact hblack
    · exact hgrey

/-! ## The two sockets -/

section
variable {Q : Post Ans Exn Session Unit}

@[simp] theorem wp_readinside : wp readinside Q s h ↔
    (∀ e : ReadFailure, Q (.error e.exn) s (⟨.readReply, .error e⟩ :: h)) ∧
    ∀ r : Reply, Q (.ok ()) { s with response := r.response } (⟨.readReply, .ok r⟩ :: h) := by
  simp [readinside, ask]

@[simp] theorem wp_inWriteline (item : Item) : wp (inWriteline item) Q s h ↔
    Q (.error .network) s (⟨.inWriteline item, false⟩ :: h) ∧
    Q (.ok ()) s (⟨.inWriteline item, true⟩ :: h) := by
  simp [inWriteline, ask, Bool.forall_bool]

@[simp] theorem wp_writeinside : wp writeinside Q s h ↔
    Q (.error .network) s (⟨.inWriteline (.command s.command), false⟩ :: h) ∧
    Q (.ok ()) s (⟨.inWriteline (.command s.command), true⟩ :: h) := by
  simp [writeinside]

@[simp] theorem wp_writeoutside (site : ReplySite) : wp (writeoutside site) Q s h ↔
    Q (.error .network) s (⟨.outReply site s.response, false⟩ :: h) ∧
    Q (.ok ()) s (⟨.outReply site s.response, true⟩ :: h) := by
  simp [writeoutside, ask, Bool.forall_bool]

@[simp] theorem wp_respond (r : SMTPResponse) :
    wp (respond r) Q s h ↔ Q (.ok ()) { s with response := r } h := Iff.rfl

@[simp] theorem wp_defer (r : SMTPResponse) :
    wp (defer r) Q s h ↔ Q (.ok ()) { s with deferrederror := r } h := Iff.rfl

@[simp] theorem wp_count (counter : Counter) : wp (count counter) Q s h ↔
    Q (.error .sql) s (⟨.count counter, false⟩ :: h) ∧
    Q (.ok ()) s (⟨.count counter, true⟩ :: h) := by
  simp [count, ask, Bool.forall_bool]

@[simp] theorem wp_verifydomain (domain : Bytes) : wp (verifydomain domain) Q s h ↔
    if byte '.' ∈ domain then Q (.ok ()) s (⟨.verifydomain domain, ()⟩ :: h)
    else Q (.error .malformedDomain) s (⟨.verifydomain domain, ()⟩ :: h) := by
  simp only [verifydomain, ask, wp_bind, wp_call, wp_ite, wp_pure, wp_raise]
  exact ⟨fun hQ => hQ (), fun hQ _ => hQ⟩

@[simp] theorem wp_verifyaddress (address : Bytes) : wp (verifyaddress address) Q s h ↔
    if byte '@' ∈ address then Q (.ok ()) s (⟨.verifyaddress address, ()⟩ :: h)
    else Q (.error .malformedAddress) s (⟨.verifyaddress address, ()⟩ :: h) := by
  simp only [verifyaddress, ask, wp_bind, wp_call, wp_ite, wp_pure, wp_raise]
  exact ⟨fun hQ => hQ (), fun hQ _ => hQ⟩

end

@[simp] theorem wp_outReadline {Q : Post Ans Exn Session Line} (site : ReadSite) :
    wp (outReadline site) Q s h ↔
    (∀ e : ReadFailure, Q (.error e.exn) s (⟨.outReadline site, .error e⟩ :: h)) ∧
    ∀ l : Line, Q (.ok l) s (⟨.outReadline site, .ok l⟩ :: h) := by
  simp [outReadline, ask]

@[simp] theorem wp_sql {α : Type} {c : Call} {answer : Ans c → Option α}
    {Q : Post Ans Exn Session α} : wp (sql c answer) Q s h ↔
      ∀ x : Ans c, match answer x with
        | none => Q (.error .sql) s (⟨c, x⟩ :: h)
        | some a => Q (.ok a) s (⟨c, x⟩ :: h) := by
  simp only [sql, wp_bind, wp_call]
  refine forall_congr' fun x => ?_
  cases answer x <;> simp

/-! ## The first switch -/

/-- The clients that no check looks at. -/
def Session.exempt (s : Session) : Bool := s.authenticated || s.trusted

/-- After a statistics update: the jump `j`, or the exception of the database. -/
@[simp] def Counted (counter : Counter) (Q : Post Ans Exn Session Jump) (j : Jump) (s : Session)
    (h : Log) : Prop :=
  Q (.error .sql) s (⟨.count counter, false⟩ :: h) ∧ Q (.ok j) s (⟨.count counter, true⟩ :: h)

section
variable {Q : Post Ans Exn Session Jump}

theorem wp_starttls : wp (starttls ctx) Q s h ↔
    if ctx.gnutls ∧ ctx.settings.externaltls then
      if s.secure then Q (.ok .error) { s with deferrederror := .set 503 } h
      else
        Q (.error .network) { s with response := .set 220 }
          (⟨.outReply .starttls (.set 220), false⟩ :: h) ∧
        Q (.error .network) { s with response := .set 220 }
          (⟨.makesecure, false⟩ :: ⟨.outReply .starttls (.set 220), true⟩ :: h) ∧
        Q (.ok .next)
          { s with
            response := .set 220, secure := true, connected := false, errorstate := false
            authenticated := false }
          ((if s.connected then [⟨.deinit, ()⟩] else [])
            ++ ⟨.makesecure, true⟩ :: ⟨.outReply .starttls (.set 220), true⟩ :: h)
    else Q (.ok .error) { s with deferrederror := .set 502 } h := by
  simp only [starttls, ask, wp_ite, wp_bind, wp_getState, wp_defer, wp_pure, wp_respond,
    wp_writeoutside, wp_call, wp_update, wp_raise, Bool.forall_bool, Bool.false_eq_true,
    ↓reduceIte]
  by_cases htls : ctx.gnutls ∧ ctx.settings.externaltls
  · rw [if_pos htls, if_pos htls]
    cases hsecure : s.secure <;> cases hconnected : s.connected
    · simp
    · simp only [Bool.false_eq_true, ↓reduceIte, List.cons_append, List.nil_append]
      exact and_congr Iff.rfl (and_congr Iff.rfl ⟨fun hQ => hQ (), fun hQ _ => hQ⟩)
    · simp
    · simp
  · rw [if_neg htls, if_neg htls]

theorem wp_hello : wp hello Q s h ↔
    if s.exempt then Q (.ok .fall) s h
    else if byte '.' ∈ s.command.parameter.bytes then
      Q (.ok .fall) s (⟨.verifydomain s.command.parameter.bytes, ()⟩ :: h)
    else Counted .malformedDomain Q .error
      { s with deferrederror := .setMessage 554 (text "Illegal domain name") }
      (⟨.verifydomain s.command.parameter.bytes, ()⟩ :: h) := by
  by_cases hd : byte '.' ∈ s.command.parameter.bytes <;>
    cases ha : s.authenticated <;> cases ht : s.trusted <;>
    simp [hello, Session.exempt, Counted, ha, ht, hd]

theorem wp_mail : wp mail Q s h ↔
    if s.exempt then Q (.ok .fall) s h
    else if s.command.parameter.bytes = [] then Q (.ok .fall) { s with _from := s.command.parameter } h
    else if byte '@' ∈ s.command.parameter.bytes then
      Q (.ok .fall) { s with _from := s.command.parameter }
        (⟨.verifyaddress s.command.parameter.bytes, ()⟩ :: h)
    else Counted .malformedAddress Q .error
      { s with _from := s.command.parameter, deferrederror := .set 501 }
      (⟨.verifyaddress s.command.parameter.bytes, ()⟩ :: h) := by
  by_cases he : s.command.parameter.bytes = [] <;>
    by_cases hd : byte '@' ∈ s.command.parameter.bytes <;>
    cases ha : s.authenticated <;> cases ht : s.trusted <;>
    simp [mail, Session.exempt, Counted, ha, ht, he, hd]

@[simp] theorem wp_blackmessage : wp blackmessage Q s h ↔
    Counted .blacklisted Q .fall
      { s with
        deferrederror := .setMessage 554
          (text "You have been blacklisted. " ++ text "Your message will not be accepted.")
        errorstate := true } h := by
  simp [blackmessage, Counted]

/-- The text that a greylisted recipient defers. -/
def greytext (ctx : Context) : Bytes :=
  text "Greylisted - try again in " ++ decimal (ctx.settings.quarantinetime.tdiv 60)
    ++ text " minutes and your message will be accepted"

@[simp] theorem wp_greymessage : wp (greymessage ctx) Q s h ↔
    Counted .greylisted Q .fall
      { s with deferrederror := .setMessage 451 (greytext ctx), errorstate := true } h := by
  simp [greymessage, Counted, greytext]

/-- The consequences of a verdict. -/
@[simp] def Judged (ctx : Context) (Q : Post Ans Exn Session Jump) (s : Session) (h : Log) :
    GreylistResponse → Prop
  | .Accepted => Counted .accepted Q .fall s h
  | .GreyListed => wp (greymessage ctx) Q s h
  | .BlackListed => wp blackmessage Q s h

/-- The consequences of asking `greylist`. -/
@[simp] def Greylisted (ctx : Context) (Q : Post Ans Exn Session Jump) (s : Session) (h : Log) :
    Prop :=
  let c := Call.greylist (network24 ctx.address) s._from.bytes s.command.parameter.bytes
  Q (.error .sql) s (⟨c, none⟩ :: h) ∧ ∀ v, Judged ctx Q s (⟨c, some v⟩ :: h) v

/-- The consequences of asking `testacceptance`. -/
@[simp] def Tested (ctx : Context) (Q : Post Ans Exn Session Jump) (s : Session) (h : Log) : Prop :=
  let c := Call.testacceptance s.command.parameter.bytes
  Q (.error .sql) s (⟨c, none⟩ :: h) ∧
  Counted .illegalRelaying Q .error
    { s with deferrederror := .setMessage 550 (text "Relaying not permitted") }
    (⟨c, some false⟩ :: h) ∧
  Greylisted ctx Q s (⟨c, some true⟩ :: h)

theorem wp_rcpt : wp (rcpt ctx) Q s h ↔
    if s.exempt then Counted .accepted Q .fall s h
    else if byte '@' ∈ s.command.parameter.bytes then
      Tested ctx Q s (⟨.verifyaddress s.command.parameter.bytes, ()⟩ :: h)
    else Counted .malformedAddress Q .error { s with deferrederror := .set 551 }
      (⟨.verifyaddress s.command.parameter.bytes, ()⟩ :: h) := by
  by_cases hd : byte '@' ∈ s.command.parameter.bytes <;>
    cases ha : s.authenticated <;> cases ht : s.trusted <;>
    simp [rcpt, judge, Session.exempt, ha, ht, hd, Option.forall]

@[simp] theorem wp_data : wp data Q s h ↔
    if s.errorstate then Q (.ok .error) s h else Q (.ok .fall) s h := by
  simp [data]

@[simp] theorem wp_rset : wp rset Q s h ↔ Q (.ok .fall) { s with _from := ⟨[], oneLine_nil⟩ } h := Iff.rfl

end

/-! ## The inside server -/

/-- `connectInside` gives up. -/
@[simp] def NoDownstream (Q : Post Ans Exn Session Unit) (s : Session) (h : Log) : Prop :=
  ∀ written : Bool, Q (.error .network) { s with response := .set 421 }
    (⟨.outReply .noDownstream (.set 421), written⟩ :: h)

theorem exn_isNetwork (e : ReadFailure) : e.exn.isNetwork = true := by cases e <;> rfl

theorem wp_connectInside {Q : Post Ans Exn Session Unit} : wp connectInside Q s h ↔
    if s.connected then Q (.ok ()) s h
    else
      NoDownstream Q s (⟨.connect, false⟩ :: h) ∧
      (∀ e, NoDownstream Q s (⟨.readReply, .error e⟩ :: ⟨.connect, true⟩ :: h)) ∧
      ∀ r : Reply, if r.response.code = 220 then
          Q (.ok ()) { s with response := r.response, connected := true }
            (⟨.readReply, .ok r⟩ :: ⟨.connect, true⟩ :: h)
        else NoDownstream Q s (⟨.readReply, .ok r⟩ :: ⟨.connect, true⟩ :: h) := by
  cases hc : s.connected
  · have hnet : Exn.network.isNetwork = true := rfl
    simp [connectInside, ask, Bool.forall_bool, hc, NoDownstream, exn_isNetwork, hnet]
  · simp [connectInside, hc]

section
variable {Q : Post Ans Exn Session Jump}

theorem wp_auth (rounds : Nat) : wp (auth ctx rounds) Q s h ↔
    if s.command.cmd = .AUTH then
      match ctx.settings.externalauthmode with
      | .NoAuth => Q (.ok .error) { s with deferrederror := .set 500 } h
      | .ProxyAuth => wp (proxyAuth rounds) Q s h
      | .InternalAuth => wp internalAuth Q s h
    else Q (.ok .fall) s h := by
  simp only [auth, wp_bind, wp_getState, wp_ite, wp_pure]
  split_ifs
  · cases ctx.settings.externalauthmode <;> simp
  · exact Iff.rfl

theorem wp_authRound {Q : Post Ans Exn Session (Option Unit)} : wp authRound Q s h ↔
    (∀ e : ReadFailure, Q (.error e.exn) s (⟨.outReadline .authLine, .error e⟩ :: h)) ∧
    ∀ l : Line,
      let h₁ := ⟨.outReadline .authLine, .ok l⟩ :: h
      Q (.error .network) s (⟨.inWriteline (.authLine l), false⟩ :: h₁) ∧
      let h₂ := ⟨.inWriteline (.authLine l), true⟩ :: h₁
      (∀ e : ReadFailure, Q (.error e.exn) s (⟨.readReply, .error e⟩ :: h₂)) ∧
      ∀ r : Reply,
        let s' := { s with response := r.response }
        let h₃ := ⟨.readReply, .ok r⟩ :: h₂
        Q (.error .network) s' (⟨.outReply .proxiedAuth r.response, false⟩ :: h₃) ∧
        Q (.ok (if r.response.code = 334 then none else some ())) s'
          (⟨.outReply .proxiedAuth r.response, true⟩ :: h₃) := by
  simp only [authRound, wp_bind, wp_outReadline, wp_inWriteline, wp_readinside, wp_writeoutside,
    wp_getState, wp_ite, wp_pure]
  refine and_congr Iff.rfl (forall_congr' fun l => and_congr Iff.rfl (and_congr Iff.rfl
    (forall_congr' fun r => and_congr Iff.rfl ?_)))
  split_ifs <;> exact Iff.rfl

/-- The exchange after the inside server's first challenge. -/
def authExchange (rounds : Nat) : Proc Jump := do
  repeatUntil .unfinished authRound rounds
  let s ← getState
  if s.response.code ≠ 235 then pure .next
  else
    update fun s => { s with authenticated := true }
    pure .next

theorem wp_proxyAuth (rounds : Nat) : wp (proxyAuth rounds) Q s h ↔
    Q (.error .network) s (⟨.inWriteline (.command s.command), false⟩ :: h) ∧
    let h₁ := ⟨.inWriteline (.command s.command), true⟩ :: h
    (∀ e : ReadFailure, Q (.error e.exn) s (⟨.readReply, .error e⟩ :: h₁)) ∧
    ∀ r : Reply,
      let s' := { s with response := r.response }
      let h₂ := ⟨.readReply, .ok r⟩ :: h₁
      Q (.error .network) s' (⟨.outReply .proxiedAuth r.response, false⟩ :: h₂) ∧
      let h₃ := ⟨.outReply .proxiedAuth r.response, true⟩ :: h₂
      if r.response.code = 334 then wp (authExchange rounds) Q s' h₃ else Q (.ok .next) s' h₃ := by
  simp only [proxyAuth, authExchange, wp_bind, wp_writeinside, wp_readinside, wp_writeoutside,
    wp_getState, wp_ite, wp_pure, ite_not]

theorem wp_errorLabel : wp (errorLabel ctx) Q s h ↔
    let s' := { s with response := s.deferrederror }
    Q (.error .network) s' (⟨.outReply .refusal s.deferrederror, false⟩ :: h) ∧
    if ctx.settings.intolerant ≠ 0 then
      Q (.ok .abort) s' (⟨.outReply .refusal s.deferrederror, true⟩ :: h)
    else
      Q (.ok .next) { s' with errorstate := false }
        (⟨.outReply .refusal s.deferrederror, true⟩ :: h) := by
  simp only [errorLabel, wp_bind, wp_update, wp_writeoutside, wp_ite, wp_pure]

theorem wp_deliver (rounds : Nat) : wp (deliver ctx rounds) Q s h ↔
    match s.command.cmd with
    | .DATA => if s.response.issuccess then
          wp (transfer ctx rounds) (fun r s' h' => Q (r.map fun _ => .next) s' h') s h
        else Q (.ok .next) s h
    | .QUIT => Q (.ok .ret) s h
    | _ => Q (.ok .next) s h := by
  simp only [deliver, wp_bind, wp_getState]
  cases s.command.cmd <;> simp only [wp_ite, wp_pure, wp_bind]
  split_ifs
  · refine iff_of_eq (congrArg (fun P => wp _ P s h) ?_)
    funext r s' h'
    cases r <;> rfl
  · exact Iff.rfl

theorem wp_forward (rounds : Nat) : wp (forward ctx rounds) Q s h ↔
    Q (.error .network) s (⟨.inWriteline (.command s.command), false⟩ :: h) ∧
    let h₁ := ⟨.inWriteline (.command s.command), true⟩ :: h
    (∀ e : ReadFailure, Q (.error e.exn) s (⟨.readReply, .error e⟩ :: h₁)) ∧
    ∀ r : Reply,
      let s' := { s with response := tweak ctx s.command.cmd r.response }
      let h₂ := ⟨.readReply, .ok r⟩ :: h₁
      Q (.error .network) s' (⟨.outReply .relay s'.response, false⟩ :: h₂) ∧
      let h₃ := ⟨.outReply .relay s'.response, true⟩ :: h₂
      if s'.response.iserror ∧ ctx.settings.intolerant ≠ 0 then Q (.ok .abort) s' h₃
      else wp (deliver ctx rounds) Q s' h₃ := by
  simp only [forward, wp_bind, wp_writeinside, wp_readinside, wp_update, wp_writeoutside,
    wp_getState, wp_ite, wp_pure]

end

theorem wp_nextCommand {Q : Post Ans Exn Session Bool} : wp nextCommand Q s h ↔
    (∀ e : ReadFailure, Q (.error e.exn) s (⟨.outReadline .command, .error e⟩ :: h)) ∧
    ∀ l : Line, match s.command.set l with
      | none => Q (.ok false) s (⟨.outReadline .command, .ok l⟩ :: h)
      | some c => Q (.ok true) { s with command := c } (⟨.outReadline .command, .ok l⟩ :: h) := by
  simp only [nextCommand, readoutside, wp_handle, wp_bind, wp_outReadline, wp_getState]
  refine and_congr (forall_congr' fun e => ?_) (forall_congr' fun l => ?_)
  · cases e <;> exact Iff.rfl
  · cases s.command.set l <;> simp

end Spey
