import Parenless.Proofs.Failures
import Parenless.Server
/-!
The document store of the editor service.

Each notification is about one document and does one thing to it: an open holds the
opened text (the empty text when none was sent), a change holds the text of its last
content change (with no change, the text the document had, or the empty text), and a
close forgets the document. `Notification.textAfter` says this of one document's text,
without the service, and a run of notifications is its fold.

The store follows that fold. One notification keeps every document indexed by its
text and does to the texts what `textAfter` says (`Server.notify_ok`); a run of them
does what the fold says (`Server.notifyAll_ok`), so a document is held exactly when
its last notification opened or changed it. The handlers fail only where indexing
fails, which is exactly on a text holding a numeral too long for the decimal reader,
so a run gets through exactly when no opened or changed text holds one
(`Server.notifyAll_ok_iff`).

Main statement: `store_follows_notifications`.
-/

namespace Parenless

namespace Notification

/-- The text a document holds after a notification, or none when it is not held; a
notification about another document keeps what it held. -/
def textAfter (uri : String) (held : Option String) : Notification → Option String
  | .opened u text => if u = uri then some (text.getD "") else held
  | .changed u texts => if u = uri then some (texts.getLast?.getD (held.getD "")) else held
  | .closed u => if u = uri then none else held

/-- The texts a notification brings to the index itself. -/
def newTexts : Notification → List String
  | .opened _ text => [text.getD ""]
  | .changed _ texts => texts.getLast?.toList
  | .closed _ => []

/-- Whether a notification leaves its document held: an open or a change does, a close
does not. -/
def keeps : Notification → Bool
  | .closed _ => false
  | _ => true

theorem isSome_textAfter (uri : String) (held : Option String) (n : Notification) :
    (n.textAfter uri held).isSome = if n.uri = uri then n.keeps else held.isSome := by
  cases n with
  | opened u text => by_cases h : u = uri <;> simp [textAfter, keeps, Notification.uri, h]
  | changed u texts => by_cases h : u = uri <;> simp [textAfter, keeps, Notification.uri, h]
  | closed u => by_cases h : u = uri <;> simp [textAfter, keeps, Notification.uri, h]

/-- After a run of notifications a document's text is held exactly when the last
notification about it keeps it, or, with none about it, when it was held before. -/
theorem isSome_foldl_textAfter (uri : String) :
    ∀ (ns : List Notification) (held : Option String),
      (ns.foldl (fun h n => n.textAfter uri h) held).isSome =
        (((ns.filter (·.uri == uri)).getLast?.map keeps).getD held.isSome) := by
  intro ns
  induction ns with
  | nil => intro held; rfl
  | cons n ns ih =>
    intro held
    rw [List.foldl_cons, ih, isSome_textAfter, List.filter_cons]
    cases hlast : (ns.filter (·.uri == uri)).getLast? with
    | some m =>
      by_cases hn : n.uri = uri
      · simp [hn, List.getLast?_cons, hlast]
      · simp [hn, hlast]
    | none =>
      by_cases hn : n.uri = uri
      · simp [hn, List.getLast?_cons, hlast]
      · simp [hn, hlast]

theorem textAfter_of_ne {uri : String} {n : Notification} (h : n.uri ≠ uri) (held : Option String) :
    n.textAfter uri held = held := by
  cases n with
  | opened u text => simp [textAfter, show u ≠ uri from h]
  | changed u texts => simp [textAfter, show u ≠ uri from h]
  | closed u => simp [textAfter, show u ≠ uri from h]

end Notification

namespace Server

variable {s s' : Server}

/-! ### Holding and dropping documents -/

/-- Replacing every entry of one URI: the entry found for that URI is the new one when
there was any, and the entry found for another URI is the one it had. -/
theorem find?_map_replace (uri u : String) (d : Document) :
    ∀ docs : List (String × Document),
      ((docs.map fun e => if e.1 == uri then (uri, d) else e).find? (·.1 == u)).map Prod.snd =
        if u = uri then (if docs.any (·.1 == uri) then some d else none)
        else (docs.find? (·.1 == u)).map Prod.snd := by
  intro docs
  induction docs with
  | nil => by_cases hu : u = uri <;> simp [hu]
  | cons e docs ih =>
    obtain ⟨k, doc⟩ := e
    by_cases he : k = uri
    · subst he
      by_cases hu : u = k
      · subst hu
        simp
      · have : (k == u) = false := by simpa using Ne.symm hu
        simp only [List.map_cons, List.find?_cons, beq_self_eq_true, if_true, this]
        simpa [hu] using ih
    · by_cases hu : u = uri
      · subst hu
        have : (k == u) = false := by simpa using he
        simp only [List.map_cons, List.find?_cons, List.any_cons, this, Bool.false_eq_true,
          if_false, Bool.false_or]
        simpa using ih
      · by_cases hku : k = u
        · subst hku
          simp [he]
        · have h1 : (k == uri) = false := by simpa using he
          have h2 : (k == u) = false := by simpa using hku
          simp only [List.map_cons, List.find?_cons, h1, h2, Bool.false_eq_true, if_false]
          simpa [hu] using ih

/-- Holding a document under a URI gives that URI the document and keeps the others. -/
theorem find?_put (uri u : String) (d : Document) :
    (s.put uri d).find? u = if u = uri then some d else s.find? u := by
  unfold put find?
  split
  · rename_i hany
    rw [find?_map_replace]
    by_cases hu : u = uri
    · simp [hu, hany]
    · simp [hu]
  · rename_i hany
    rw [List.find?_append]
    by_cases hu : u = uri
    · subst hu
      have hnone : s.documents.find? (·.1 == u) = none := by
        rw [List.find?_eq_none]
        intro e he heu
        exact hany (List.any_eq_true.mpr ⟨e, he, heu⟩)
      simp [hnone]
    · rw [if_neg hu]
      cases s.documents.find? (·.1 == u) with
      | some e => rfl
      | none => simp [Ne.symm hu]

theorem find?_drop (uri u : String) :
    (s.drop uri).find? u = if u = uri then none else s.find? u := by
  unfold drop find?
  dsimp only
  rw [List.find?_filter]
  by_cases hu : u = uri
  · subst hu
    rw [if_pos rfl, List.find?_eq_none.mpr]
    · rfl
    · intro e _
      by_cases he : e.1 = u <;> simp [he]
  · rw [if_neg hu]
    congr 2
    funext e
    by_cases he : e.1 = u
    · simp [he, hu]
    · simp [he]

@[simp] theorem room_put (uri : String) (d : Document) : (s.put uri d).room = s.room := by
  unfold put
  split <;> rfl

@[simp] theorem room_drop (uri : String) : (s.drop uri).room = s.room := rfl

/-! ### One notification -/

/-- Every document is held with the index of its text. -/
def Indexed (s : Server) : Prop :=
  ∀ {uri : String} {d : Document}, s.find? uri = some d → Index.build s.room d.text = .ok d.index

theorem indexed_empty (room : Nat) : ({ room := room } : Server).Indexed := by
  intro uri d h
  simp [find?] at h

theorem indexed_put {uri text : String} {idx : Index} (hs : s.Indexed)
    (h : Index.build s.room text = .ok idx) : (s.put uri ⟨text, idx⟩).Indexed := by
  intro u d hd
  rw [find?_put] at hd
  rw [room_put]
  by_cases hu : u = uri
  · rw [if_pos hu] at hd
    cases hd
    exact h
  · rw [if_neg hu] at hd
    exact hs hd

theorem indexed_drop {uri : String} (hs : s.Indexed) : (s.drop uri).Indexed := by
  intro u d hd
  rw [find?_drop] at hd
  by_cases hu : u = uri
  · rw [if_pos hu] at hd
    cases hd
  · rw [if_neg hu] at hd
    exact hs hd

theorem update_ok {uri text : String} {p : Published} (h : s.update uri text = .ok (s', p)) :
    ∃ idx, Index.build s.room text = .ok idx ∧ s' = s.put uri ⟨text, idx⟩ ∧ p = ⟨uri, idx.notes⟩ := by
  unfold update at h
  split at h
  · rename_i idx hidx
    cases h
    exact ⟨idx, hidx, rfl, rfl⟩
  · cases h

theorem update_of_build_error {uri text : String} {f : Failure}
    (h : Index.build s.room text = .error f) : s.update uri text = .error (.failed f) := by
  unfold update
  rw [h]

theorem update_error_iff {uri text : String} :
    (∃ r, s.update uri text = .error r) ↔ ∃ k, Token.scan text = .error (.tooManyDigits k) := by
  rw [← Index.build_error_iff]
  constructor
  · rintro ⟨r, h⟩
    unfold update at h
    split at h
    · cases h
    · rename_i f hf
      exact ⟨f, hf⟩
  · rintro ⟨f, hf⟩
    exact ⟨_, update_of_build_error hf⟩

theorem notify_text {n : Notification} (hk : n.keeps = true) :
    ∃ text, n.textAfter n.uri ((s.find? n.uri).map Document.text) = some text ∧
      s.notify n = s.update n.uri text := by
  cases n with
  | opened uri text => exact ⟨_, by simp [Notification.textAfter, Notification.uri], rfl⟩
  | changed uri texts =>
    refine ⟨texts.getLast?.getD (((s.find? uri).map Document.text).getD ""),
      by simp [Notification.textAfter, Notification.uri], ?_⟩
    simp only [notify, changeDocument, Notification.uri]
    cases texts.getLast? <;> rfl
  | closed uri => cases hk

theorem notify_other {n : Notification} {p : Published} (h : s.notify n = .ok (s', p)) {u : String}
    (hu : u ≠ n.uri) : s'.find? u = s.find? u := by
  cases n with
  | opened uri text =>
    obtain ⟨idx, -, rfl, -⟩ := update_ok h
    rw [find?_put, if_neg (show u ≠ uri from hu)]
  | changed uri texts =>
    obtain ⟨idx, -, rfl, -⟩ := update_ok h
    rw [find?_put, if_neg (show u ≠ uri from hu)]
  | closed uri =>
    cases h
    show (s.drop uri).find? u = _
    rw [find?_drop, if_neg (show u ≠ uri from hu)]

/-- One notification: the room stays, every document stays indexed by its text, the
texts change as `textAfter` says, a document of another URI is untouched, and what is
published is about the notification's document, with no notes for a close. -/
theorem notify_ok {n : Notification} {p : Published} (hs : s.Indexed)
    (h : s.notify n = .ok (s', p)) :
    s'.room = s.room ∧ s'.Indexed ∧
      (∀ u, (s'.find? u).map Document.text = n.textAfter u ((s.find? u).map Document.text)) ∧
      (∀ u, u ≠ n.uri → s'.find? u = s.find? u) ∧
      p.uri = n.uri ∧ (n.keeps = false → p.notes = []) := by
  cases hk : n.keeps with
  | true =>
    obtain ⟨text, htext, hnotify⟩ := notify_text (s := s) hk
    rw [hnotify] at h
    obtain ⟨idx, hidx, rfl, rfl⟩ := update_ok h
    refine ⟨room_put _ _, indexed_put hs hidx, fun u => ?_, fun u hu => ?_, rfl, fun h => nomatch h⟩
    · rw [find?_put]
      by_cases hu : u = n.uri
      · subst hu
        rw [if_pos rfl, htext]
        rfl
      · rw [if_neg hu, Notification.textAfter_of_ne (Ne.symm hu)]
    · rw [find?_put, if_neg hu]
  | false =>
    cases n with
    | opened uri text => cases hk
    | changed uri texts => cases hk
    | closed uri =>
      cases h
      refine ⟨rfl, indexed_drop hs, fun u => ?_, fun u hu => notify_other rfl hu, rfl, fun _ => rfl⟩
      show ((s.drop uri).find? u).map Document.text = _
      rw [find?_drop]
      by_cases hu : u = uri
      · simp [hu, Notification.textAfter]
      · simp [hu, Notification.textAfter, Ne.symm hu]

theorem build_empty (room : Nat) : ∃ idx, Index.build room "" = .ok idx := by
  cases h : Index.build room "" with
  | ok idx => exact ⟨idx, rfl⟩
  | error f =>
    obtain ⟨k, hk⟩ := Index.build_error_iff.mp ⟨f, h⟩
    simp [Token.scan, Lexer.scanFrom_nil] at hk

/-- A notification fails exactly when a text it brings holds an over-long numeral: a
change with no content indexes again a text that was indexed, or the empty text. -/
theorem notify_error_iff {n : Notification} (hs : s.Indexed) :
    (∃ r, s.notify n = .error r) ↔ ∃ text ∈ n.newTexts, ∃ k, Token.scan text = .error (.tooManyDigits k) := by
  cases n with
  | opened uri text =>
    show (∃ r, s.update uri (text.getD "") = .error r) ↔ _
    rw [update_error_iff]
    simp [Notification.newTexts]
  | changed uri texts =>
    show (∃ r, s.changeDocument uri texts = .error r) ↔ _
    unfold changeDocument
    dsimp only
    cases hlast : texts.getLast? with
    | some t =>
      rw [update_error_iff]
      simp [Notification.newTexts, hlast]
    | none =>
      simp only [Notification.newTexts, hlast, Option.toList_none, List.not_mem_nil, false_and,
        exists_false, iff_false, not_exists]
      intro r hr
      obtain ⟨f, hf⟩ : ∃ f, Index.build s.room (((s.find? uri).map (·.text)).getD "") = .error f := by
        unfold update at hr
        split at hr
        · cases hr
        · rename_i f hf
          exact ⟨f, hf⟩
      cases hfind : s.find? uri with
      | none =>
        rw [hfind] at hf
        obtain ⟨idx, hidx⟩ := build_empty s.room
        rw [Option.map_none, Option.getD_none, hidx] at hf
        cases hf
      | some d =>
        rw [hfind] at hf
        rw [Option.map_some, Option.getD_some, hs hfind] at hf
        cases hf
  | closed uri =>
    simp [notify, Notification.newTexts]

/-! ### Runs of notifications -/

theorem notifyAll_cons_error {n : Notification} {ns : List Notification} {r : Refusal}
    (h : s.notify n = .error r) : s.notifyAll (n :: ns) = .error r := by
  rw [notifyAll, h]

theorem notifyAll_cons_ok {n : Notification} {ns : List Notification} {ps : List Published}
    (h : s.notifyAll (n :: ns) = .ok (s', ps)) :
    ∃ s₁ p ps', s.notify n = .ok (s₁, p) ∧ s₁.notifyAll ns = .ok (s', ps') ∧ ps = p :: ps' := by
  rw [notifyAll] at h
  split at h
  · cases h
  · rename_i s₁ p hn
    split at h
    · cases h
    · rename_i s₂ ps' hns
      cases h
      exact ⟨s₁, p, ps', hn, hns, rfl⟩

/-- A run of notifications: the room stays, every document stays indexed by its text,
each document's text is the fold of `textAfter` over the run, and each notification
publishes about its own document, with no notes for a close. The induction is on the
run, one notification at a time. -/
theorem notifyAll_ok {ns : List Notification} {ps : List Published} (hs : s.Indexed)
    (h : s.notifyAll ns = .ok (s', ps)) :
    s'.room = s.room ∧ s'.Indexed ∧
      (∀ u, (s'.find? u).map Document.text =
        ns.foldl (fun held n => n.textAfter u held) ((s.find? u).map Document.text)) ∧
      List.Forall₂ (fun n p => p.uri = n.uri ∧ (n.keeps = false → p.notes = [])) ns ps := by
  induction ns generalizing s ps with
  | nil =>
    rw [notifyAll] at h
    cases h
    exact ⟨rfl, hs, fun u => rfl, .nil⟩
  | cons n ns ih =>
    obtain ⟨s₁, p, ps', hn, hns, rfl⟩ := notifyAll_cons_ok h
    obtain ⟨hroom, hidx, htext, -, hpuri, hpnotes⟩ := notify_ok hs hn
    obtain ⟨hroom', hidx', htext', hps⟩ := ih hidx hns
    refine ⟨hroom'.trans hroom, hidx', fun u => ?_, .cons ⟨hpuri, hpnotes⟩ hps⟩
    rw [htext', htext, List.foldl_cons]

/-- A run of notifications gets through exactly when no text an open or a change brings
holds an over-long numeral. -/
theorem notifyAll_ok_iff {ns : List Notification} (hs : s.Indexed) :
    (∃ r, s.notifyAll ns = .ok r) ↔
      ∀ n ∈ ns, ∀ text ∈ n.newTexts, ∀ k, Token.scan text ≠ .error (.tooManyDigits k) := by
  induction ns generalizing s with
  | nil => exact ⟨fun _ n hn => absurd hn List.not_mem_nil, fun _ => ⟨_, rfl⟩⟩
  | cons n ns ih =>
    rw [List.forall_mem_cons]
    rcases hn : s.notify n with r | ⟨s₁, p⟩
    · obtain ⟨text, htext, k, hk⟩ := (notify_error_iff hs).mp ⟨r, hn⟩
      refine ⟨fun ⟨_, h⟩ => ?_, fun hall => absurd hk (hall.1 text htext k)⟩
      rw [notifyAll, hn] at h
      cases h
    · have hfirst : ∀ text ∈ n.newTexts, ∀ k, Token.scan text ≠ .error (.tooManyDigits k) := by
        intro text htext k hk
        obtain ⟨r, hr⟩ := (notify_error_iff hs).mpr ⟨text, htext, k, hk⟩
        rw [hn] at hr
        cases hr
      rw [← ih (notify_ok hs hn).2.1]
      constructor
      · rintro ⟨r, h⟩
        rw [notifyAll, hn] at h
        dsimp only at h
        split at h
        · cases h
        · rename_i s₂ ps' hns
          exact ⟨hfirst, _, hns⟩
      · rintro ⟨-, ⟨s₂, ps'⟩, hns⟩
        refine ⟨(s₂, p :: ps'), ?_⟩
        rw [notifyAll, hn]
        dsimp only
        rw [hns]

end Server

/-! ### Main statement -/

/-- The store follows the notifications. Starting from no documents, a run of opens,
changes and closes gets through exactly when no opened or changed text holds a numeral
too long for the decimal reader. When it does, every URI holds the text the fold of
`textAfter` gives it, with the index of that text, and nothing when the fold gives none,
which is exactly when its last notification was a close or there was none; each
notification publishes about its own document, and a close publishes no notes. No
notification touches the document of another URI. -/
theorem store_follows_notifications (room : Nat) (ns : List Notification) :
    ((∃ r, ({ room := room } : Server).notifyAll ns = .ok r) ↔
      ∀ n ∈ ns, ∀ text ∈ n.newTexts, ∀ k, Token.scan text ≠ .error (.tooManyDigits k)) ∧
    (∀ s' ps, ({ room := room } : Server).notifyAll ns = .ok (s', ps) →
      (∀ uri, match ns.foldl (fun held n => n.textAfter uri held) none with
        | none => s'.find? uri = none
        | some t => ∃ idx, Index.build room t = .ok idx ∧ s'.find? uri = some ⟨t, idx⟩) ∧
      (∀ uri, (s'.find? uri).isSome =
        ((ns.filter (·.uri == uri)).getLast?.map Notification.keeps).getD false) ∧
      List.Forall₂ (fun n p => p.uri = n.uri ∧ (n.keeps = false → p.notes = [])) ns ps) ∧
    (∀ (s s' : Server) (n : Notification) (p : Published), s.notify n = .ok (s', p) →
      ∀ uri, uri ≠ n.uri → s'.find? uri = s.find? uri) := by
  refine ⟨Server.notifyAll_ok_iff (Server.indexed_empty room), fun s' ps h => ?_,
    fun _ _ _ _ h _ hu => Server.notify_other h hu⟩
  obtain ⟨hroom, hidx, htext, hps⟩ := Server.notifyAll_ok (Server.indexed_empty room) h
  refine ⟨fun uri => ?_, fun uri => ?_, hps⟩
  · have hu := htext uri
    rw [show ({ room := room } : Server).find? uri = none from rfl, Option.map_none] at hu
    split
    · rename_i hfold
      rw [hfold] at hu
      exact Option.map_eq_none_iff.mp hu
    · rename_i t hfold
      rw [hfold] at hu
      obtain ⟨d, hd, rfl⟩ := Option.map_eq_some_iff.mp hu
      have hbuild := hidx hd
      rw [hroom] at hbuild
      exact ⟨d.index, hbuild, hd⟩
  · rw [← Option.isSome_map (f := Document.text), htext uri,
      Notification.isSome_foldl_textAfter]
    rfl

/-- A document whose text is a numeral of 4301 digits cannot be indexed: opening it is
refused, so the store never holds it with its index. -/
theorem overlong_open_refused :
    Index.build Stack.standard.room (String.ofList (List.replicate 4301 '1')) =
        .error (.tooManyDigits 4301) ∧
      ({} : Server).notifyAll [.opened "file:///doc.pn" (some (String.ofList (List.replicate 4301 '1')))] =
        .error (.failed (.tooManyDigits 4301)) := by
  have hscan : Token.scan (String.ofList (List.replicate 4301 '1')) = .error (.tooManyDigits 4301) :=
    Lexer.scan_replicate_digit rfl (by decide)
  -- the text stays a variable of the general lemmas, never unfolded here
  have hbuild : Index.build Stack.standard.room _ = _ := Index.build_of_overlong hscan
  exact ⟨hbuild, Server.notifyAll_cons_error (Server.update_of_build_error hbuild)⟩

end Parenless