import Mathlib.Data.PNat.Basic
import Mathlib.Data.Prod.Lex
import Mathlib.Data.String.Basic
import Newide.Foundation.Runs
import Newide.Foundation.Watermarks
import Newide.MailboxIdempotency

/-!
# Polling the inbox

`listMailboxInbox` of `src/persistence/sqlite-coordination-store.ts`: the
deliveries of one recipient behind a delivery already seen, in the order
of their creation time and, within one millisecond, of their identifier.
A poller that keeps the last delivery it saw gets every delivery once,
unless one is posted behind its back: in the millisecond of the one it
saw last, with a smaller identifier.
-/

namespace Newide

open Fallible Statement Watermarks

/-! ## Listing -/

structure InboxScope where
  taskId : String
  workspacePath : String
  recipientRoleId : String

def InboxScope.Owns (scope : InboxScope) (row : PersistedMailboxDelivery) : Prop :=
  row.taskId = scope.taskId ∧ row.workspacePath = scope.workspacePath ∧
    row.recipientRoleId = scope.recipientRoleId

instance (scope : InboxScope) (row : PersistedMailboxDelivery) : Decidable (scope.Owns row) :=
  inferInstanceAs (Decidable (_ ∧ _))

/-- `created_at > ? OR (created_at = ? AND delivery_id > ?)` -/
def PersistedMailboxDelivery.Before (cursor row : PersistedMailboxDelivery) : Prop :=
  cursor.createdAt < row.createdAt ∨
    row.createdAt = cursor.createdAt ∧ cursor.deliveryId < row.deliveryId

instance (cursor row : PersistedMailboxDelivery) : Decidable (cursor.Before row) :=
  inferInstanceAs (Decidable (_ ∨ _))

namespace MailboxTables

def inboxCursor (tables : MailboxTables) (afterDeliveryId : Option String) :
    Except MailboxError (Option PersistedMailboxDelivery) :=
  match truthy afterDeliveryId with
  | some deliveryId => (tables.requireMailboxDelivery deliveryId).map some
  | none => .ok none

def inboxRows (tables : MailboxTables) (scope : InboxScope)
    (cursor : Option PersistedMailboxDelivery) : List PersistedMailboxDelivery :=
  (tables.deliveries.filter fun row => scope.Owns row ∧ ∀ seen ∈ cursor, seen.Before row)
    |>.insertionSort deliveryBefore

def listMailboxInbox (tables : MailboxTables) (scope : InboxScope)
    (afterDeliveryId : Option String) : Except MailboxError (List PersistedMailboxEnvelope) := do
  let cursor ← tables.inboxCursor afterDeliveryId
  ensure (∀ seen ∈ cursor, scope.Owns seen) (.store ("Mailbox delivery cursor " ++
    afterDeliveryId.getD "" ++ " belongs to another recipient"))
  (tables.inboxRows scope cursor).mapM fun row => tables.readMailboxEnvelope row.deliveryId

end MailboxTables

open MailboxTables

/-! ## A poller -/

structure InboxReader where
  tables : MailboxTables := {}
  cursor : Option String := none
  pages : List (List PersistedMailboxEnvelope) := []

/-- A call of the mailbox service, whose fresh identifier is a text, or a poll that takes at
most `limit` deliveries. -/
inductive InboxStep where
  | call (step : MailboxStep) (named : step.env.createDeliveryId ≠ "")
  | poll (limit : ℕ+)

namespace InboxReader

def receive (s : InboxReader) (page : List PersistedMailboxEnvelope) : InboxReader :=
  { s with
    cursor := (page.getLast?.map (·.delivery.deliveryId)) <|> s.cursor
    pages := s.pages ++ [page] }

def step (scope : InboxScope) (s : InboxReader) : InboxStep → InboxReader
  | .call step _ => { s with tables := s.tables.step step }
  | .poll limit =>
      match s.tables.listMailboxInbox scope s.cursor with
      | .error _ => s
      | .ok envelopes => s.receive (envelopes.take limit)

def returned (s : InboxReader) : List String :=
  s.pages.flatten.map (·.delivery.deliveryId)

def polls (s : InboxReader) (deliveryId : String) : ℕ :=
  s.pages.countP fun page => page.any (·.delivery.deliveryId = deliveryId)

end InboxReader

/-- A call posts a delivery that is not behind the one the poller saw last. -/
def Overtaken (scope : InboxScope) (s : InboxReader) (_ : InboxStep) (t : InboxReader) : Prop :=
  ∃ seen ∈ t.tables.deliveries, s.cursor = some seen.deliveryId ∧
    ∃ row ∈ t.tables.deliveries, scope.Owns row ∧ ¬ seen.Before row ∧
      ∀ old ∈ s.tables.deliveries, old.deliveryId ≠ row.deliveryId

instance (scope : InboxScope) (s : InboxReader) (step : InboxStep) (t : InboxReader) :
    Decidable (Overtaken scope s step t) :=
  inferInstanceAs (Decidable (∃ seen ∈ t.tables.deliveries, s.cursor = some seen.deliveryId ∧
    ∃ row ∈ t.tables.deliveries, scope.Owns row ∧ ¬ seen.Before row ∧
      ∀ old ∈ s.tables.deliveries, old.deliveryId ≠ row.deliveryId))

/-! ## Positions -/

def PersistedMailboxDelivery.position (row : PersistedMailboxDelivery) : String ×ₗ String :=
  toLex (row.createdAt, row.deliveryId)

variable {new : PersistedMailboxDelivery} {page rows : List PersistedMailboxDelivery}

variable {old : PersistedMailboxDelivery}

section
variable {scope : InboxScope} {tables : MailboxTables} {a b row : PersistedMailboxDelivery}
  {cursor : Option PersistedMailboxDelivery}

theorem before_iff : a.Before b ↔ a.position < b.position := by
  simp only [PersistedMailboxDelivery.Before, PersistedMailboxDelivery.position, Prod.Lex.lt_iff,
    ofLex_toLex]
  exact or_congr_right (and_congr_left' eq_comm)

theorem not_before_iff : ¬ a.Before b ↔ b.position ≤ a.position := by
  rw [before_iff, not_lt]

theorem deliveryBefore_iff : deliveryBefore a b ↔ a.position ≤ b.position := by
  simp only [deliveryBefore, PersistedMailboxDelivery.position, Prod.Lex.le_iff, ofLex_toLex]

theorem PersistedMailboxDelivery.SamePost.position (h : old.SamePost new) :
    new.position = old.position := by
  rw [PersistedMailboxDelivery.position, PersistedMailboxDelivery.position, h.createdAt,
    h.deliveryId]

theorem PersistedMailboxDelivery.SamePost.owns (h : old.SamePost new) :
    scope.Owns new ↔ scope.Owns old := by
  rw [InboxScope.Owns, InboxScope.Owns, h.taskId, h.workspacePath, h.recipientRoleId]

theorem mem_inboxRows : row ∈ tables.inboxRows scope cursor ↔
    row ∈ tables.deliveries ∧ scope.Owns row ∧ ∀ seen ∈ cursor, seen.Before row := by
  simp [inboxRows, List.mem_insertionSort]

instance : Std.Total deliveryBefore where
  total a b := by
    rw [deliveryBefore_iff, deliveryBefore_iff]
    exact le_total _ _

instance : IsTrans PersistedMailboxDelivery deliveryBefore where
  trans a b c h h' := by
    rw [deliveryBefore_iff] at *
    exact h.trans h'

theorem inboxRows_ascending (hkept : tables.Kept) :
    Watermarks.Ascending PersistedMailboxDelivery.position (tables.inboxRows scope cursor) := by
  have hsorted : (tables.inboxRows scope cursor).Pairwise deliveryBefore :=
    List.pairwise_insertionSort _ _
  have hdistinct : (tables.inboxRows scope cursor).Pairwise
      fun a b => a.deliveryId ≠ b.deliveryId := by
    refine List.pairwise_map.mp (?_ : ((tables.inboxRows scope cursor).map (·.deliveryId)).Nodup)
    exact (((List.perm_insertionSort _ _).map _).nodup_iff).mpr (hkept.deliveryIds.filter _)
  refine (hsorted.and hdistinct).imp fun {a b} hab => ?_
  refine lt_of_le_of_ne (deliveryBefore_iff.mp hab.1) fun heq => hab.2 ?_
  exact congrArg (fun position => (ofLex position).2) heq

theorem readMailboxEnvelope_of_mem (hkept : tables.Kept) (hrow : row ∈ tables.deliveries) :
    ∃ envelope, tables.readMailboxEnvelope row.deliveryId = .ok envelope ∧
      envelope.delivery.deliveryId = row.deliveryId := by
  obtain ⟨message, hmessage, hid⟩ := hkept.sent row hrow
  refine ⟨{ message := readMailboxMessage message, delivery := readMailboxDelivery row }, ?_, rfl⟩
  simp only [readMailboxEnvelope, requireMailboxDelivery, bind_eq_ok, orThrow_eq_ok, pure_eq_ok]
  refine ⟨_, ⟨row, hkept.deliveryIds.lookup_of_mem hrow, rfl⟩, message, ?_, rfl⟩
  have hfound := hkept.messageIds.lookup_of_mem hmessage
  rwa [hid] at hfound

end

/-! ## What holds of every poller -/

namespace InboxReader

/-- The poller has come to the row or past it. -/
def Passed (s : InboxReader) (row : PersistedMailboxDelivery) : Prop :=
  ∃ seen ∈ s.tables.deliveries, s.cursor = some seen.deliveryId ∧ row.position ≤ seen.position

structure Sound (scope : InboxScope) (s : InboxReader) : Prop where
  kept : s.tables.Kept
  named : ∀ row ∈ s.tables.deliveries, row.deliveryId ≠ ""
  /-- The cursor is one of the recipient's deliveries. -/
  cursor : ∀ deliveryId ∈ s.cursor, ∃ row ∈ s.tables.deliveries, row.deliveryId = deliveryId ∧
    scope.Owns row
  /-- No delivery was returned twice. -/
  once : s.returned.Nodup
  /-- And every one that was is the recipient's, and passed. -/
  passed : ∀ deliveryId ∈ s.returned, ∃ row ∈ s.tables.deliveries, row.deliveryId = deliveryId ∧
    scope.Owns row ∧ s.Passed row

/-- Every delivery that was passed was returned. -/
def Complete (scope : InboxScope) (s : InboxReader) : Prop :=
  ∀ row ∈ s.tables.deliveries, scope.Owns row → s.Passed row → row.deliveryId ∈ s.returned

variable {scope : InboxScope} {s t : InboxReader} {row : PersistedMailboxDelivery}

theorem Sound.init : Sound scope {} where
  kept := .empty
  named row h := by cases h
  cursor deliveryId h := by cases h
  once := List.nodup_nil
  passed deliveryId h := by cases h

theorem Complete.init : Complete scope {} := fun row h => by cases h

theorem eq_of_deliveryId (h : s.Sound scope) {a b : PersistedMailboxDelivery}
    (ha : a ∈ s.tables.deliveries) (hb : b ∈ s.tables.deliveries)
    (hid : a.deliveryId = b.deliveryId) : a = b :=
  h.kept.deliveryIds.eq_of_key ha hb hid

/-! ### Polls -/

/-- The rows a poll lists: those the poller has not passed, in their order. -/
structure Lists (scope : InboxScope) (s : InboxReader) (rows : List PersistedMailboxDelivery) :
    Prop where
  ascending : Watermarks.Ascending PersistedMailboxDelivery.position rows
  mem : ∀ row, row ∈ rows ↔ row ∈ s.tables.deliveries ∧ scope.Owns row ∧ ¬ s.Passed row
  listed : ∃ envelopes, s.tables.listMailboxInbox scope s.cursor = .ok envelopes ∧
    envelopes.map (·.delivery.deliveryId) = rows.map (·.deliveryId)

theorem Sound.inboxCursor (h : s.Sound scope) : ∃ cursor,
    s.tables.inboxCursor s.cursor = .ok cursor ∧ (∀ seen ∈ cursor, scope.Owns seen) ∧
      ∀ row, (∀ seen ∈ cursor, seen.position < row.position) ↔ ¬ s.Passed row := by
  cases hs : s.cursor with
  | none =>
      refine ⟨none, rfl, by simp, fun row => ?_⟩
      simp [Passed, hs]
  | some deliveryId =>
      obtain ⟨row, hrow, rfl, howns⟩ := h.cursor deliveryId hs
      have htext : truthy (some row.deliveryId) = some row.deliveryId :=
        truthy_eq_some.mpr ⟨rfl, h.named row hrow⟩
      have hread : s.tables.requireMailboxDelivery row.deliveryId =
          .ok (readMailboxDelivery row) := by
        simp only [requireMailboxDelivery, bind_eq_ok, orThrow_eq_ok, pure_eq_ok]
        exact ⟨row, h.kept.deliveryIds.lookup_of_mem hrow, rfl⟩
      have hpos : (readMailboxDelivery row).position = row.position := rfl
      have hpassed (other : PersistedMailboxDelivery) :
          s.Passed other ↔ other.position ≤ row.position := by
        constructor
        · rintro ⟨seen, hseen, hcursor, hle⟩
          obtain rfl := eq_of_deliveryId h hrow hseen (Option.some.inj (hs.symm.trans hcursor))
          exact hle
        · intro hle
          exact ⟨row, hrow, hs, hle⟩
      refine ⟨some (readMailboxDelivery row), ?_, ?_, fun other => ?_⟩
      · rw [MailboxTables.inboxCursor, htext]
        exact mapped_eq_ok.mpr ⟨_, hread, rfl⟩
      · have hsame : scope.Owns (readMailboxDelivery row) := howns
        simpa using hsame
      · rw [hpassed, not_le]
        simp [hpos]

theorem Sound.lists (h : s.Sound scope) : ∃ rows, s.Lists scope rows := by
  obtain ⟨cursor, hread, howns, hpassed⟩ := h.inboxCursor
  have henvelope : ∀ row ∈ s.tables.inboxRows scope cursor, ∃ envelope,
      s.tables.readMailboxEnvelope row.deliveryId = .ok envelope ∧
        envelope.delivery.deliveryId = row.deliveryId := fun row hrow =>
    readMailboxEnvelope_of_mem h.kept (mem_inboxRows.mp hrow).1
  obtain ⟨envelopes, henvelopes, hids⟩ := mapM_ok_of
    (f := fun row : PersistedMailboxDelivery => s.tables.readMailboxEnvelope row.deliveryId)
    (g := (·.delivery.deliveryId)) (k := (·.deliveryId)) henvelope
  refine ⟨s.tables.inboxRows scope cursor, inboxRows_ascending h.kept, fun row => ?_,
    envelopes, ?_, hids⟩
  · rw [mem_inboxRows, ← hpassed]
    simp only [before_iff]
  · simp only [listMailboxInbox, bind_eq_ok, ensure_eq_ok]
    exact ⟨cursor, hread, ⟨⟩, howns, henvelopes⟩

/-- What a poll does: it returns a page of the rows it lists, and passes those. -/
structure Polled (scope : InboxScope) (s t : InboxReader)
    (page : List PersistedMailboxDelivery) : Prop where
  tables : t.tables = s.tables
  returned : t.returned = s.returned ++ page.map (·.deliveryId)
  cursor : t.cursor = (page.getLast?.map (·.deliveryId) <|> s.cursor)
  distinct : (page.map (·.deliveryId)).Nodup
  mem : ∀ row ∈ page, row ∈ s.tables.deliveries ∧ scope.Owns row ∧ ¬ s.Passed row
  passed : ∀ row ∈ s.tables.deliveries, scope.Owns row →
    (t.Passed row ↔ s.Passed row ∨ row ∈ page)

theorem Lists.polled (h : s.Sound scope) (hlists : s.Lists scope rows) (limit : ℕ+) :
    Polled scope s (s.step scope (.poll limit)) (rows.take limit) := by
  obtain ⟨hascending, hmem, envelopes, hlisted, hids⟩ := hlists
  have hpage : (envelopes.take limit).map (·.delivery.deliveryId) =
      (rows.take limit).map (·.deliveryId) := by rw [List.map_take, hids, ← List.map_take]
  have hstep : s.step scope (.poll limit) = s.receive (envelopes.take limit) := by
    simp only [step, hlisted]
  have hin (row : PersistedMailboxDelivery) (hrow : row ∈ rows.take limit) :=
    (hmem row).mp (List.mem_of_mem_take hrow)
  have hcursor : (s.step scope (.poll limit)).cursor =
      ((rows.take limit).getLast?.map (·.deliveryId) <|> s.cursor) := by
    rw [hstep, receive, ← List.getLast?_map, hpage, List.getLast?_map]
  rw [hstep] at hcursor ⊢
  refine ⟨rfl, ?_, hcursor, ?_, hin, fun row hrow howns => ?_⟩
  · simp only [returned, receive, List.flatten_append, List.map_append, List.flatten_cons,
      List.flatten_nil, List.append_nil, hpage]
  · refine (List.nodup_map_iff_inj_on ?_).mpr fun a ha b hb hid =>
      eq_of_deliveryId h (hin a ha).1 (hin b hb).1 hid
    exact (hascending.imp fun hlt heq => hlt.ne (congrArg _ heq)).sublist (List.take_sublist _ _)
  · cases hlast : (rows.take limit).getLast? with
    | none =>
        rw [hlast] at hcursor
        have hsame : (s.receive (envelopes.take limit)).Passed row ↔ s.Passed row := by
          rw [Passed, Passed, hcursor]
          rfl
        rw [hsame, List.getLast?_eq_none_iff.mp hlast]
        simp
    | some last =>
        have hlastMem := List.mem_of_getLast? hlast
        obtain ⟨hstored, _, hunpassed⟩ := hin last hlastMem
        have hlater : (s.receive (envelopes.take limit)).Passed row ↔
            row.position ≤ last.position := by
          rw [hlast] at hcursor
          constructor
          · rintro ⟨seen, hseen, hid, hle⟩
            have hsame := Option.some.inj (hcursor.symm.trans hid)
            obtain rfl := eq_of_deliveryId h hstored hseen hsame
            exact hle
          · intro hle
            exact ⟨last, hstored, hcursor, hle⟩
        rw [hlater]
        constructor
        · intro hle
          by_cases hpassed : s.Passed row
          · exact .inl hpassed
          · right
            rw [← upTo_take hascending hlast, mem_upTo]
            exact ⟨(hmem row).mpr ⟨hrow, howns, hpassed⟩, hle⟩
        · rintro (⟨seen, hseen, hid, hle⟩ | hpage)
          · refine le_of_lt (lt_of_not_ge fun hge => hunpassed ⟨seen, hseen, hid, ?_⟩)
            exact hge.trans hle
          · rw [← upTo_take hascending hlast, mem_upTo] at hpage
            exact hpage.2

theorem Sound.polled (h : s.Sound scope) (limit : ℕ+) :
    ∃ page, Polled scope s (s.step scope (.poll limit)) page := by
  obtain ⟨rows, hlists⟩ := h.lists
  exact ⟨_, hlists.polled h limit⟩

theorem Polled.sound (h : s.Sound scope) (hp : Polled scope s t page) : t.Sound scope where
  kept := by
    rw [hp.tables]
    exact h.kept
  named := by
    rw [hp.tables]
    exact h.named
  cursor deliveryId hid := by
    rw [hp.tables]
    have hcursor := hp.cursor
    cases hlast : page.getLast? with
    | none =>
        rw [hlast] at hcursor
        exact h.cursor deliveryId (hcursor.symm.trans hid)
    | some last =>
        rw [hlast] at hcursor
        obtain ⟨hstored, howns, _⟩ := hp.mem last (List.mem_of_getLast? hlast)
        exact ⟨last, hstored, Option.some.inj (hcursor.symm.trans hid), howns⟩
  once := by
    rw [hp.returned]
    refine h.once.append hp.distinct fun deliveryId hold hnew => ?_
    obtain ⟨row, hrow, hid, _, hpassed⟩ := h.passed deliveryId hold
    obtain ⟨other, hother, hotherId⟩ := List.mem_map.mp hnew
    obtain ⟨hstored, _, hunpassed⟩ := hp.mem other hother
    obtain rfl := eq_of_deliveryId h hrow hstored (hid.trans hotherId.symm)
    exact hunpassed hpassed
  passed deliveryId hid := by
    rw [hp.tables]
    rw [hp.returned] at hid
    rcases List.mem_append.mp hid with hold | hnew
    · obtain ⟨row, hrow, hrowId, howns, hpassed⟩ := h.passed deliveryId hold
      exact ⟨row, hrow, hrowId, howns, (hp.passed row hrow howns).mpr (.inl hpassed)⟩
    · obtain ⟨row, hrow, hrowId⟩ := List.mem_map.mp hnew
      obtain ⟨hstored, howns, _⟩ := hp.mem row hrow
      exact ⟨row, hstored, hrowId, howns, (hp.passed row hstored howns).mpr (.inr hrow)⟩

theorem Polled.complete_iff (h : s.Sound scope) (hp : Polled scope s t page) :
    t.Complete scope ↔ s.Complete scope := by
  constructor
  · intro hcomplete row hrow howns hpassed
    have hlater := hcomplete row (by rw [hp.tables]; exact hrow) howns
      ((hp.passed row hrow howns).mpr (.inl hpassed))
    rw [hp.returned] at hlater
    rcases List.mem_append.mp hlater with hold | hnew
    · exact hold
    · obtain ⟨other, hother, hid⟩ := List.mem_map.mp hnew
      obtain ⟨hstored, _, hunpassed⟩ := hp.mem other hother
      obtain rfl := eq_of_deliveryId h hrow hstored hid.symm
      exact absurd hpassed hunpassed
  · intro hcomplete row hrow howns hpassed
    rw [hp.tables] at hrow
    rw [hp.returned]
    rcases (hp.passed row hrow howns).mp hpassed with hold | hnew
    · exact List.mem_append_left _ (hcomplete row hrow howns hold)
    · exact List.mem_append_right _ (List.mem_map_of_mem hnew)

/-! ### Calls -/

theorem passed_advanced (h : s.Sound scope) (ht : t.tables.Kept) {fresh : String}
    (hadvances : PostsAdvance fresh s.tables t.tables) (hcursor : t.cursor = s.cursor)
    (hsame : row.SamePost new) :
    t.Passed new ↔ s.Passed row := by
  constructor
  · rintro ⟨seen, hseen, hid, hle⟩
    rw [hcursor] at hid
    obtain ⟨old, hold, holdId, _⟩ := h.cursor seen.deliveryId hid
    obtain ⟨later, hlater, hpost⟩ := hadvances.deliveries old hold
    obtain rfl := ht.deliveryIds.eq_of_key hseen hlater (holdId.symm.trans hpost.deliveryId.symm)
    refine ⟨old, hold, by rw [holdId, hid], ?_⟩
    rwa [← hsame.position, ← hpost.position]
  · rintro ⟨seen, hseen, hid, hle⟩
    obtain ⟨later, hlater, hpost⟩ := hadvances.deliveries seen hseen
    refine ⟨later, hlater, by rw [hcursor, hid, hpost.deliveryId], ?_⟩
    rwa [hsame.position, hpost.position]

theorem Sound.call (h : s.Sound scope) {step : MailboxStep} (hnamed : step.env.createDeliveryId ≠ "") :
    (s.step scope (.call step hnamed)).Sound scope := by
  have hkept := h.kept.step step
  have hadvances : PostsAdvance step.env.createDeliveryId s.tables (s.tables.step step) :=
    step.call.advances step.env s.tables
  refine
    { kept := hkept
      named := ?_
      cursor := ?_
      once := h.once
      passed := ?_ }
  · intro row hrow
    rcases hadvances.added row hrow with hfresh | ⟨old, hold, hpost⟩
    · rwa [hfresh]
    · rw [hpost.deliveryId]
      exact h.named old hold
  · intro deliveryId hid
    obtain ⟨row, hrow, hrowId, howns⟩ := h.cursor deliveryId hid
    obtain ⟨new, hnew, hpost⟩ := hadvances.deliveries row hrow
    exact ⟨new, hnew, hpost.deliveryId.trans hrowId, hpost.owns.mpr howns⟩
  · intro deliveryId hid
    obtain ⟨row, hrow, hrowId, howns, hpassed⟩ := h.passed deliveryId hid
    obtain ⟨new, hnew, hpost⟩ := hadvances.deliveries row hrow
    exact ⟨new, hnew, hpost.deliveryId.trans hrowId, hpost.owns.mpr howns,
      (passed_advanced (t := s.step scope (.call step hnamed)) h hkept hadvances rfl hpost).mpr
        hpassed⟩

theorem Sound.complete_call_iff (h : s.Sound scope) {step : MailboxStep}
    (hnamed : step.env.createDeliveryId ≠ "") :
    (s.step scope (.call step hnamed)).Complete scope ↔ s.Complete scope ∧
      ¬ Overtaken scope s (.call step hnamed) (s.step scope (.call step hnamed)) := by
  have hsound := h.call hnamed
  have hadvances : PostsAdvance step.env.createDeliveryId s.tables (s.tables.step step) :=
    step.call.advances step.env s.tables
  have hpassed {row new : PersistedMailboxDelivery} (hpost : row.SamePost new) :
      (s.step scope (.call step hnamed)).Passed new ↔ s.Passed row :=
    passed_advanced h hsound.kept hadvances rfl hpost
  constructor
  · intro hcomplete
    constructor
    · intro row hrow howns hrowPassed
      obtain ⟨new, hnew, hpost⟩ := hadvances.deliveries row hrow
      rw [← hpost.deliveryId]
      exact hcomplete new hnew (hpost.owns.mpr howns) ((hpassed hpost).mpr hrowPassed)
    · rintro ⟨seen, hseen, hid, row, hrow, howns, hbehind, hfresh⟩
      have hreturned := hcomplete row hrow howns ⟨seen, hseen, hid, not_before_iff.mp hbehind⟩
      obtain ⟨old, hold, holdId, _⟩ := h.passed row.deliveryId hreturned
      exact hfresh old hold holdId
  · rintro ⟨hcomplete, hovertaken⟩ new hnew howns hnewPassed
    by_cases hold : ∃ old ∈ s.tables.deliveries, old.deliveryId = new.deliveryId
    · obtain ⟨old, hold, holdId⟩ := hold
      obtain ⟨later, hlater, hpost⟩ := hadvances.deliveries old hold
      obtain rfl := eq_of_deliveryId hsound hnew hlater (holdId.symm.trans hpost.deliveryId.symm)
      have hreturned := hcomplete old hold (hpost.owns.mp howns) ((hpassed hpost).mp hnewPassed)
      rwa [holdId] at hreturned
    · obtain ⟨seen, hseen, hid, hle⟩ := hnewPassed
      exact absurd ⟨seen, hseen, hid, new, hnew, howns, not_before_iff.mpr hle,
        fun old hmem hsame => hold ⟨old, hmem, hsame⟩⟩ hovertaken

/-! ## Whole runs -/

theorem Sound.step (h : s.Sound scope) (step : InboxStep) : (s.step scope step).Sound scope := by
  cases step with
  | call step hnamed => exact h.call hnamed
  | poll limit =>
      obtain ⟨page, hp⟩ := h.polled limit
      exact hp.sound h

theorem Sound.complete_step_iff (h : s.Sound scope) (step : InboxStep) :
    (s.step scope step).Complete scope ↔
      s.Complete scope ∧ ¬ Overtaken scope s step (s.step scope step) := by
  cases step with
  | call step hnamed => exact h.complete_call_iff hnamed
  | poll limit =>
      obtain ⟨page, hp⟩ := h.polled limit
      rw [hp.complete_iff h, iff_self_and]
      rintro - ⟨_, _, _, row, hrow, _, _, hfresh⟩
      rw [hp.tables] at hrow
      exact hfresh row hrow rfl

theorem sound_run (scope : InboxScope) (steps : List InboxStep) :
    (steps.foldl (InboxReader.step scope) {}).Sound scope :=
  List.foldlRecOn steps _ .init fun _ h step _ => h.step step

theorem complete_iff (scope : InboxScope) (steps : List InboxStep) :
    (steps.foldl (InboxReader.step scope) {}).Complete scope ↔
      ¬ Runs.Happened (InboxReader.step scope) {} steps (Overtaken scope) :=
  Runs.holds_iff_not_happened (J := Sound scope) (fun _ step h => h.step step)
    (fun _ step h => h.complete_step_iff step) .init .init

/-! ### Polling to the end -/

theorem countP_pages {β : Type} {g : β → String} {id : String} {pages : List (List β)}
    (h : (pages.flatten.map g).Nodup) :
    pages.countP (fun page => page.any (g · = id)) = 1 ↔ id ∈ pages.flatten.map g := by
  induction pages with
  | nil => simp
  | cons page rest ih =>
      rw [List.flatten_cons, List.map_append, List.nodup_append] at h
      rw [List.countP_cons, List.flatten_cons, List.map_append, List.mem_append]
      by_cases hpage : id ∈ page.map g
      · have hrest : rest.countP (fun page => page.any (g · = id)) = 0 := by
          refine List.countP_eq_zero.mpr fun other hother hany => ?_
          obtain ⟨y, hy, hid⟩ := List.any_eq_true.mp hany
          refine h.2.2 id hpage id ?_ rfl
          exact List.mem_map.mpr ⟨y, List.mem_flatten_of_mem hother hy, of_decide_eq_true hid⟩
        have hany : page.any (g · = id) = true := by
          obtain ⟨y, hy, hid⟩ := List.mem_map.mp hpage
          exact List.any_eq_true.mpr ⟨y, hy, decide_eq_true hid⟩
        simp [hrest, hany, hpage]
      · have hany : page.any (g · = id) = false := by
          rw [List.any_eq_false]
          intro y hy hid
          exact hpage (List.mem_map.mpr ⟨y, hy, of_decide_eq_true hid⟩)
        rw [hany, if_neg Bool.false_ne_true, Nat.add_zero, ih h.2.1]
        exact ⟨.inr, fun hor => hor.resolve_left hpage⟩

theorem Sound.polls_iff (h : s.Sound scope) {deliveryId : String} :
    s.polls deliveryId = 1 ↔ deliveryId ∈ s.returned :=
  countP_pages h.once

theorem Sound.passed_of_empty (h : s.Sound scope)
    (hempty : s.tables.listMailboxInbox scope s.cursor = .ok [])
    (hrow : row ∈ s.tables.deliveries) (howns : scope.Owns row) : s.Passed row := by
  obtain ⟨rows, hlists⟩ := h.lists
  obtain ⟨envelopes, hlisted, hids⟩ := hlists.listed
  cases hempty.symm.trans hlisted
  by_contra hpassed
  have hin := (hlists.mem row).mpr ⟨hrow, howns, hpassed⟩
  rw [List.map_nil, eq_comm, List.map_eq_nil_iff] at hids
  simp [hids] at hin

theorem Sound.poll_shrinks (h : s.Sound scope) (limit : ℕ+) (hlists : s.Lists scope rows)
    {rows' : List PersistedMailboxDelivery}
    (hlists' : (s.step scope (.poll limit)).Lists scope rows') :
    rows'.length ≤ rows.length - 1 := by
  have hp := hlists.polled h limit
  have hsub : rows' ⊆ rows := by
    intro row hrow
    obtain ⟨hstored, howns, hunpassed⟩ := (hlists'.mem row).mp hrow
    rw [hp.tables] at hstored
    exact (hlists.mem row).mpr ⟨hstored, howns, fun hpassed =>
      hunpassed ((hp.passed row hstored howns).mpr (.inl hpassed))⟩
  cases rows with
  | nil => rw [List.subset_nil.mp hsub, List.length_nil]
  | cons head rest =>
      have hhead : head ∈ (head :: rest).take limit := by
        obtain ⟨n, hn⟩ := Nat.exists_eq_succ_of_ne_zero limit.ne_zero
        simp [hn]
      have hnodup : (head :: rows').Nodup := by
        refine List.nodup_cons.mpr ⟨fun hin => ?_, hlists'.ascending.imp fun hlt heq =>
          hlt.ne (congrArg _ heq)⟩
        obtain ⟨hstored, howns, hunpassed⟩ := (hlists'.mem head).mp hin
        rw [hp.tables] at hstored
        exact hunpassed ((hp.passed head hstored howns).mpr (.inr hhead))
      have hlength := (List.subperm_of_subset hnodup
        (List.cons_subset.mpr ⟨List.mem_cons_self, hsub⟩)).length_le
      simp only [List.length_cons] at hlength ⊢
      omega

theorem Sound.drained (h : s.Sound scope) (hlists : s.Lists scope rows) (limits : List ℕ+)
    (hlength : rows.length ≤ limits.length) :
    let t := (limits.map InboxStep.poll).foldl (InboxReader.step scope) s
    t.tables.listMailboxInbox scope t.cursor = .ok [] := by
  induction limits generalizing s rows with
  | nil =>
      obtain ⟨envelopes, hlisted, hids⟩ := hlists.listed
      rw [List.length_eq_zero_iff.mp (Nat.le_zero.mp hlength), List.map_nil,
        List.map_eq_nil_iff] at hids
      rwa [hids] at hlisted
  | cons limit limits ih =>
      have hnext := h.step (.poll limit)
      obtain ⟨rows', hlists'⟩ := hnext.lists
      have hshrinks := h.poll_shrinks limit hlists hlists'
      rw [List.length_cons] at hlength
      exact ih hnext hlists' (by omega)

end InboxReader

/-! ## Completeness of polling -/

open InboxReader in
/-- After any calls and polls, enough further polls come to an empty page; and when the next page
is empty, every delivery of the recipient was returned by exactly one poll if and only if no call
ever posted one that was not behind the delivery the poller had seen last. -/
theorem inbox_complete_iff (scope : InboxScope) (steps : List InboxStep) :
    let s := steps.foldl (InboxReader.step scope) {}
    (∃ n, ∀ limits : List ℕ+, n ≤ limits.length →
      let t := (limits.map InboxStep.poll).foldl (InboxReader.step scope) s
      t.tables.listMailboxInbox scope t.cursor = .ok []) ∧
    (s.tables.listMailboxInbox scope s.cursor = .ok [] →
      ((∀ row ∈ s.tables.deliveries, scope.Owns row → s.polls row.deliveryId = 1) ↔
        ¬ Runs.Happened (InboxReader.step scope) {} steps (Overtaken scope))) := by
  intro s
  have hsound : s.Sound scope := sound_run scope steps
  constructor
  · obtain ⟨rows, hlists⟩ := hsound.lists
    exact ⟨rows.length, hsound.drained hlists⟩
  · intro hempty
    rw [← complete_iff]
    constructor
    · intro hpolls row hrow howns _
      exact hsound.polls_iff.mp (hpolls row hrow howns)
    · intro hcomplete row hrow howns
      exact hsound.polls_iff.mpr
        (hcomplete row hrow howns (hsound.passed_of_empty hempty hrow howns))

/-! Two requests in one millisecond, the first of them polled before the second is sent. -/

def reviewerInbox : InboxScope where
  taskId := "task"
  workspacePath := "."
  recipientRoleId := "reviewer"

def requestSent (n idempotencyKey : String) : MailboxStep where
  env := requestEnv.draw (requestDraw n)
  call := .send { requestInput "review" with idempotencyKey }

def requestsPolled (first second : String) (hfirst : "delivery-" ++ first ≠ "")
    (hsecond : "delivery-" ++ second ≠ "") : List InboxStep :=
  [.call (requestSent first "ask-1") hfirst, .poll 1, .call (requestSent second "ask-2") hsecond,
    .poll 1]

theorem requests_returned :
    let s := (requestsPolled "1" "2" (by decide) (by decide)).foldl
      (InboxReader.step reviewerInbox) {}
    s.polls "delivery-1" = 1 ∧ s.polls "delivery-2" = 1 := by
  intro s
  obtain ⟨_, hiff⟩ := inbox_complete_iff reviewerInbox
    (requestsPolled "1" "2" (by decide) (by decide))
  have hall := (hiff rfl).mpr (by decide +kernel)
  exact ⟨hall _ List.mem_cons_self ⟨rfl, rfl, rfl⟩,
    hall _ (List.mem_cons_of_mem _ List.mem_cons_self) ⟨rfl, rfl, rfl⟩⟩

/-- The identifier of the second request is the smaller one: no poll returns it. -/
theorem request_passed_over :
    let s := (requestsPolled "2" "1" (by decide) (by decide)).foldl
      (InboxReader.step reviewerInbox) {}
    (s.tables.deliveries.map (·.createdAt) =
      ["2026-01-01T00:00:00.000Z", "2026-01-01T00:00:00.000Z"]) ∧
    s.tables.listMailboxInbox reviewerInbox s.cursor = .ok [] ∧
    ∃ row ∈ s.tables.deliveries, reviewerInbox.Owns row ∧ s.polls row.deliveryId = 0 := by
  intro s
  exact ⟨rfl, rfl, _, List.mem_cons_of_mem _ List.mem_cons_self, ⟨rfl, rfl, rfl⟩, rfl⟩

end Newide
