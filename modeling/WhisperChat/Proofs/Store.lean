import WhisperChat.Proofs.Except
import WhisperChat.Store.Database

/-!
# What the statements do

A statement that succeeds says what has become of the tables.  The identifier of a new message is
greater than all before it, so its row comes last and the index has no row of it yet: inserting a
message adds one row and the rows of its audience, and nothing else (`insertMessage_ok`).  The
statements on users, channels and groups leave messages and index alone.
-/

namespace WhisperChat

/-- A number below 128 as an identifier. -/
def Ident.small {kind : IdentKind} (n : Nat) : Ident kind :=
  ⟨Int.ofNat (n % 128), by simp; omega, by simp; omega⟩

theorem IdentSet.nodup_toList {kind : IdentKind} (s : IdentSet kind) : s.toList.Nodup := by
  refine s.ascending.imp ?_
  rintro a _ hlt rfl
  exact Ident.lt_irrefl a hlt

/-! ## The table of messages -/

theorem Ident.le_foldl_max {kind : IdentKind} (ids : List (Ident kind)) (start : Ident kind) :
    start ≤ ids.foldl (fun a b ↦ if a < b then b else a) start ∧
      ∀ id ∈ ids, id ≤ ids.foldl (fun a b ↦ if a < b then b else a) start := by
  induction ids generalizing start with
  | nil => simp [Ident.le_def]
  | cons id ids ih =>
    rw [List.foldl_cons]
    obtain ⟨hstart, hids⟩ := ih (if start < id then id else start)
    have hboth : start ≤ (if start < id then id else start) ∧
        id ≤ (if start < id then id else start) := by
      split <;> simp only [Ident.lt_def, Ident.le_def] at * <;> omega
    simp only [Ident.le_def] at *
    refine ⟨by omega, fun x hx ↦ ?_⟩
    rcases List.mem_cons.1 hx with rfl | hx
    · omega
    · exact hids x hx

theorem Ident.foldl_max_eq_or_mem {kind : IdentKind} (ids : List (Ident kind))
    (start : Ident kind) :
    ids.foldl (fun a b ↦ if a < b then b else a) start = start ∨
      ids.foldl (fun a b ↦ if a < b then b else a) start ∈ ids := by
  induction ids generalizing start with
  | nil => exact .inl rfl
  | cons id ids ih =>
    rw [List.foldl_cons]
    rcases ih (if start < id then id else start) with hstart | hmem
    · rw [hstart]
      split
      · exact .inr List.mem_cons_self
      · exact .inl rfl
    · exact .inr (List.mem_cons_of_mem _ hmem)

namespace MessageTable

/-- The next identifier is positive and greater than all that have been given out. -/
theorem lt_nextId {t : MessageTable} {id : MessageId} (h : t.nextId? = some id) :
    0 < id.val ∧ ∀ row ∈ t.rows, row.id < id := by
  have hval := Ident.ofInt?_eq_some_iff.1 h
  obtain ⟨hzero, hrows⟩ := Ident.le_foldl_max (t.rows.map MessageRow.id) (.zero .message)
  simp only [Ident.le_def] at hzero hrows
  have hstart : (Ident.zero .message).val = 0 := rfl
  refine ⟨by omega, fun row hrow ↦ ?_⟩
  have hle := hrows row.id (List.mem_map_of_mem hrow)
  rw [Ident.lt_def]
  omega

/-- The next identifier is the next number. -/
theorem nextId_le {t : MessageTable} {id : MessageId} (h : t.nextId? = some id) {n : Int}
    (hn : 0 ≤ n) (hrows : ∀ row ∈ t.rows, row.id.val ≤ n) : id.val ≤ n + 1 := by
  have hval := Ident.ofInt?_eq_some_iff.1 h
  rcases Ident.foldl_max_eq_or_mem (t.rows.map MessageRow.id) (.zero .message) with hstart | hmem
  · rw [hstart] at hval
    have hzero : (Ident.zero .message).val = 0 := rfl
    omega
  · obtain ⟨row, hrow, hid⟩ := List.mem_map.1 hmem
    have hle := hrows row hrow
    rw [hid] at hle
    omega

theorem place_eq_append {row : MessageRow} {rows : List MessageRow}
    (h : ∀ r ∈ rows, r.id < row.id) : place row rows = rows ++ [row] := by
  induction rows with
  | nil => rfl
  | cons r rest ih =>
    have hr : r.id < row.id := h r (by simp)
    rw [place, if_neg (Ident.lt_asymm hr), if_pos hr, ih fun x hx ↦ h x (by simp [hx])]
    rfl

/-- A row under the next identifier comes last. -/
theorem rows_insert {t : MessageTable} {row : MessageRow} (h : t.nextId? = some row.id) :
    (t.insert row).rows = t.rows ++ [row] := place_eq_append (lt_nextId h).2

theorem mem_place_of_mem {row x : MessageRow} {rows : List MessageRow} (h : x ∈ rows) :
    x ∈ place row rows := by
  induction rows with
  | nil => cases h
  | cons r rest ih =>
    unfold place
    split
    · exact List.mem_cons_of_mem _ h
    · split
      · rcases List.mem_cons.1 h with rfl | h
        · exact List.mem_cons_self
        · exact List.mem_cons_of_mem _ (ih h)
      · exact h

theorem contains_iff {t : MessageTable} {id : MessageId} :
    t.contains id = true ↔ ∃ row ∈ t.rows, row.id = id := by
  simp [contains]

/-- The next identifier is not taken. -/
theorem contains_nextId {t : MessageTable} {id : MessageId} (h : t.nextId? = some id) :
    t.contains id = false := by
  rw [Bool.eq_false_iff, ne_eq, contains_iff]
  rintro ⟨row, hrow, rfl⟩
  exact Ident.lt_irrefl _ ((lt_nextId h).2 row hrow)

/-- Nothing is found yet under the next identifier. -/
theorem find?_nextId {t : MessageTable} {id : MessageId} (h : t.nextId? = some id) :
    t.find? id = none := by
  have hfree := contains_nextId h
  rw [contains, List.any_eq_false] at hfree
  exact List.find?_eq_none.2 hfree

/-- A row is found under its identifier. -/
theorem find?_eq_some_of_mem {t : MessageTable} {row : MessageRow} (h : row ∈ t.rows) :
    t.find? row.id = some row := by
  obtain ⟨before, after, hrows⟩ := List.append_of_mem h
  have hsorted := t.ascending
  rw [hrows, List.pairwise_append] at hsorted
  have hbefore : before.find? (fun r ↦ r.id = row.id) = none := by
    rw [List.find?_eq_none]
    intro r hr
    have hlt : r.id < row.id := hsorted.2.2 r hr row (by simp)
    simp only [decide_eq_true_eq]
    exact fun heq ↦ Ident.lt_irrefl row.id (heq ▸ hlt)
  simp [find?, hrows, hbefore]

theorem mem_of_find?_eq_some {t : MessageTable} {id : MessageId} {row : MessageRow}
    (h : t.find? id = some row) : row ∈ t.rows ∧ row.id = id :=
  ⟨List.mem_of_find?_eq_some h, by simpa using List.find?_some h⟩

end MessageTable

namespace Database

variable {db db' : Database}

/-! ## Inserting a message -/

/-- Every row of the index is for a message that is there. -/
def IndexIsSound (db : Database) : Prop := ∀ row ∈ db.visibility, db.messages.contains row.1 = true

theorem hasVisibilityRow_iff {message : MessageId} {user : UserId} :
    db.hasVisibilityRow message user = true ↔ (message, user) ∈ db.visibility := by
  simp [hasVisibilityRow]

/-- The index has no row yet for an identifier that is about to be given out. -/
theorem notMem_visibility_nextId {id : MessageId} (hsound : db.IndexIsSound)
    (h : db.messages.nextId? = some id) (user : UserId) : (id, user) ∉ db.visibility := by
  intro hentry
  exact Bool.eq_false_iff.1 (MessageTable.contains_nextId h) (hsound _ hentry)

theorem putMessage_ok {row : MessageRow} (h : db.putMessage row = .ok db') :
    db.messages.contains row.id = false ∧ db' = { db with messages := db.messages.insert row } := by
  simp only [putMessage, bind_eq_ok_iff, ite_eq_ok_iff, pure_eq_ok_iff, throw_eq_ok_iff] at h
  obtain ⟨_, -, h⟩ := h
  rcases h with ⟨-, _, h, -⟩ | ⟨hfree, h⟩
  · exact h.elim
  rcases h with ⟨-, _, h, -⟩ | ⟨-, rfl⟩
  · exact h.elim
  · exact ⟨by simpa using hfree, rfl⟩

theorem putVisibilityRow_ok {message : MessageId} {user : UserId}
    (h : db.putVisibilityRow message user = .ok db') :
    db.hasVisibilityRow message user = false ∧ db.messages.contains message = true ∧
      db.userExists user = true ∧
      db' = { db with visibility := db.visibility ++ [(message, user)] } := by
  simp only [putVisibilityRow, bind_eq_ok_iff, ite_eq_ok_iff, pure_eq_ok_iff, throw_eq_ok_iff] at h
  obtain ⟨_, -, h⟩ := h
  rcases h with ⟨-, _, h, -⟩ | ⟨hnew, h⟩
  · exact h.elim
  rcases h with ⟨-, _, h, -⟩ | ⟨hthere, rfl⟩
  · exact h.elim
  · simp only [Bool.not_eq_true', Bool.not_eq_false, Bool.and_eq_true] at hthere
    exact ⟨by simpa using hnew, hthere.1, hthere.2, rfl⟩

theorem addVisibilityRow_ok {message : MessageId} {user : UserId}
    (h : db.addVisibilityRow message user = .ok db') :
    db.hasVisibilityRow message user = true ∧ db' = db ∨
      db.hasVisibilityRow message user = false ∧
        db' = { db with visibility := db.visibility ++ [(message, user)] } := by
  simp only [addVisibilityRow, bind_eq_ok_iff, ite_eq_ok_iff, pure_eq_ok_iff] at h
  obtain ⟨_, -, ⟨hrow, rfl⟩ | ⟨hnew, h⟩⟩ := h
  · exact .inl ⟨hrow, rfl⟩
  · exact .inr ⟨by simpa using hnew, (putVisibilityRow_ok h).2.2.2⟩

/-- Those of the users who have no row of the message yet. -/
def withoutRow (db : Database) (message : MessageId) (users : List UserId) : List UserId :=
  users.filter fun user ↦ !db.hasVisibilityRow message user

/-- Rows for the users who have none yet are all added, in their order. -/
theorem addVisibilityRows_ok {message : MessageId} {users : List UserId} (hnodup : users.Nodup)
    (h : db.addVisibilityRows message users = (.ok (), db')) :
    db' = { db with
      visibility :=
        db.visibility ++ (db.withoutRow message users).map fun user ↦ (message, user) } := by
  induction users generalizing db with
  | nil =>
    cases h
    simp [withoutRow]
  | cons user users ih =>
    rw [List.nodup_cons] at hnodup
    rw [addVisibilityRows] at h
    split at h
    · cases h
    · rename_i db₁ hadd
      rw [ih hnodup.2 h, withoutRow, withoutRow]
      rcases addVisibilityRow_ok hadd with ⟨hrow, rfl⟩ | ⟨hnew, rfl⟩
      · simp [hrow]
      · -- The row of the first user is none of the others.
        have hrest : ∀ u ∈ users, hasVisibilityRow
            { db with visibility := db.visibility ++ [(message, user)] } message u =
              db.hasVisibilityRow message u := by
          intro u hu
          have hne : u ≠ user := fun heq ↦ hnodup.1 (heq ▸ hu)
          simp [hasVisibilityRow, hne]
        rw [List.filter_congr fun u hu ↦ congrArg (! ·) (hrest u hu)]
        simp [hnew]

/-- The database with a draft written under an identifier, and an index row for each user of its
audience who has none. -/
def withMessage (db : Database) (id : MessageId) (draft : Draft) (audience : IdentSet .user) :
    Database :=
  { db with
    messages := db.messages.insert (.ofDraft id draft)
    visibility := db.visibility ++ (db.withoutRow id audience.toList).map fun user ↦ (id, user) }

/-- Inserting a message gives it the next identifier and adds its row and those of its audience. -/
theorem insertMessage_ok {draft : Draft} {audience : IdentSet .user} {m : Message}
    (h : db.insertMessage draft audience = (.ok m, db')) :
    ∃ id, db.messages.nextId? = some id ∧ m = { draft with id } ∧
      db' = db.withMessage id draft audience := by
  unfold insertMessage at h
  simp only at h
  split at h
  · cases h
  · rename_i id db₁ hwritten
    simp only [bind_eq_ok_iff] at hwritten
    obtain ⟨_, -, hwritten⟩ := hwritten
    split at hwritten
    · cases hwritten
    · rename_i next hnext
      simp only [bind_eq_ok_iff, pure_eq_ok_iff, Prod.mk.injEq] at hwritten
      obtain ⟨_, hput, rfl, rfl⟩ := hwritten
      obtain ⟨-, rfl⟩ := putMessage_ok hput
      generalize hrows : addVisibilityRows
        { db with messages := db.messages.insert (.ofDraft next draft) } next audience.toList =
          added at h
      obtain ⟨answer, db₂⟩ := added
      cases answer with
      | error e => cases h
      | ok _ =>
        cases h
        exact ⟨next, hnext, rfl, addVisibilityRows_ok audience.nodup_toList hrows⟩

/-- Where the index is sound, nobody has a row of the next message yet. -/
theorem withoutRow_nextId {id : MessageId} (hsound : db.IndexIsSound)
    (h : db.messages.nextId? = some id) (users : List UserId) : db.withoutRow id users = users := by
  rw [withoutRow, List.filter_eq_self]
  intro user _
  rw [Bool.not_eq_true', Bool.eq_false_iff, ne_eq, hasVisibilityRow_iff]
  exact notMem_visibility_nextId hsound h user

theorem rows_withMessage {id : MessageId} {draft : Draft} {audience : IdentSet .user}
    (h : db.messages.nextId? = some id) :
    (db.withMessage id draft audience).messages.rows =
      db.messages.rows ++ [.ofDraft id draft] := MessageTable.rows_insert h

theorem indexIsSound_withMessage {id : MessageId} {draft : Draft} {audience : IdentSet .user}
    (hsound : db.IndexIsSound) (h : db.messages.nextId? = some id) :
    (db.withMessage id draft audience).IndexIsSound := by
  intro row hrow
  rw [MessageTable.contains_iff, rows_withMessage h]
  rcases List.mem_append.1 hrow with hrow | hrow
  · obtain ⟨r, hr, hid⟩ := MessageTable.contains_iff.1 (hsound row hrow)
    exact ⟨r, List.mem_append_left _ hr, hid⟩
  · obtain ⟨user, -, rfl⟩ := List.mem_map.1 hrow
    exact ⟨.ofDraft id draft, by simp, rfl⟩

/-! ## Users, channels and groups -/

/-- The identifier of the next row is not taken, be it the next one or one that has become free. -/
theorem notMem_of_nextRowId? {kind : IdentKind} {ids : List (Ident kind)} {id : Ident kind}
    (h : nextRowId? ids = some id) : id ∉ ids := by
  cases ids with
  | nil => exact List.not_mem_nil
  | cons first rest =>
    simp only [nextRowId?] at h
    split at h
    · rename_i next hnext
      cases h
      have hval := Ident.ofInt?_eq_some_iff.1 hnext
      obtain ⟨hfirst, hrest⟩ := Ident.le_foldl_max rest first
      simp only [Ident.le_def] at hfirst hrest
      rw [List.mem_cons, not_or]
      refine ⟨?_, fun hmem ↦ ?_⟩
      · rintro rfl
        omega
      · have hle := hrest id hmem
        omega
    · simpa using List.find?_some h

theorem putUser_ok {user : UserId} {name : String} (h : db.putUser user name = .ok db') :
    db.userExists user = false ∧ db' = { db with users := db.users ++ [(user, name)] } := by
  simp only [putUser, bind_eq_ok_iff, ite_eq_ok_iff, pure_eq_ok_iff, throw_eq_ok_iff] at h
  obtain ⟨_, -, ⟨-, _, h, -⟩ | ⟨hfree, rfl⟩⟩ := h
  · exact h.elim
  · exact ⟨by simpa using hfree, rfl⟩

theorem createUser_ok {user : UserId} {name : String} (h : db.createUser name = .ok (user, db')) :
    nextRowId? (db.users.map Prod.fst) = some user ∧
      db' = { db with users := db.users ++ [(user, name)] } := by
  simp only [createUser, bind_eq_ok_iff] at h
  obtain ⟨_, -, h⟩ := h
  split at h
  · cases h
  · rename_i next hnext
    simp only [bind_eq_ok_iff, pure_eq_ok_iff, Prod.mk.injEq] at h
    obtain ⟨_, hput, rfl, rfl⟩ := h
    exact ⟨hnext, (putUser_ok hput).2⟩

theorem putChannel_ok {channel : ChannelId} {name : String}
    (h : db.putChannel channel name = .ok db') :
    db.channelExists channel = false ∧ (∀ row ∈ db.channels, row.2 ≠ name) ∧
      db' = { db with channels := db.channels ++ [(channel, name)] } := by
  simp only [putChannel, bind_eq_ok_iff, ite_eq_ok_iff, pure_eq_ok_iff, throw_eq_ok_iff] at h
  obtain ⟨_, -, ⟨-, _, h, -⟩ | ⟨hfree, h⟩⟩ := h
  · exact h.elim
  obtain ⟨-, _, h, -⟩ | ⟨hname, rfl⟩ := h
  · exact h.elim
  · refine ⟨by simpa using hfree, fun row hrow heq ↦ hname ?_, rfl⟩
    exact List.any_eq_true.2 ⟨row, hrow, by simpa using heq⟩

theorem createChannel_ok {channel : ChannelId} {name : String}
    (h : db.createChannel name = .ok (channel, db')) :
    nextRowId? (db.channels.map Prod.fst) = some channel ∧ (∀ row ∈ db.channels, row.2 ≠ name) ∧
      db' = { db with channels := db.channels ++ [(channel, name)] } := by
  simp only [createChannel, bind_eq_ok_iff] at h
  obtain ⟨_, -, h⟩ := h
  split at h
  · cases h
  · rename_i next hnext
    simp only [bind_eq_ok_iff, pure_eq_ok_iff, Prod.mk.injEq] at h
    obtain ⟨_, hput, rfl, rfl⟩ := h
    exact ⟨hnext, (putChannel_ok hput).2⟩

theorem putGroup_ok {group : GroupId} {name : String} (h : db.putGroup group name = .ok db') :
    db.groupExists group = false ∧ (∀ row ∈ db.groups, row.2 ≠ name) ∧
      db' = { db with groups := db.groups ++ [(group, name)] } := by
  simp only [putGroup, bind_eq_ok_iff, ite_eq_ok_iff, pure_eq_ok_iff, throw_eq_ok_iff] at h
  obtain ⟨_, -, ⟨-, _, h, -⟩ | ⟨hfree, h⟩⟩ := h
  · exact h.elim
  obtain ⟨-, _, h, -⟩ | ⟨hname, rfl⟩ := h
  · exact h.elim
  · refine ⟨by simpa using hfree, fun row hrow heq ↦ hname ?_, rfl⟩
    exact List.any_eq_true.2 ⟨row, hrow, by simpa using heq⟩

/-- Making a group either changes nothing, or makes it and adds members as far as they can be. -/
theorem createGroup_cases (db : Database) (name : String) (users : List UserId) :
    (∃ e, db.createGroup name users = (.error e, db)) ∨
      ∃ group, nextRowId? (db.groups.map Prod.fst) = some group ∧
        (∀ row ∈ db.groups, row.2 ≠ name) ∧
        db.createGroup name users =
          let added := addMembers { db with groups := db.groups ++ [(group, name)] } group users
          (added.1.map fun _ ↦ group, added.2) := by
  unfold createGroup
  simp only
  split
  · exact .inl ⟨_, rfl⟩
  · rename_i group db₁ hcreated
    simp only [bind_eq_ok_iff] at hcreated
    obtain ⟨_, -, hcreated⟩ := hcreated
    split at hcreated
    · cases hcreated
    · rename_i next hnext
      simp only [bind_eq_ok_iff, pure_eq_ok_iff, Prod.mk.injEq] at hcreated
      obtain ⟨_, hput, rfl, rfl⟩ := hcreated
      obtain ⟨-, hname, rfl⟩ := putGroup_ok hput
      exact .inr ⟨next, hnext, hname, rfl⟩

theorem addMember_ok {group : GroupId} {user : UserId} {added : Bool}
    (h : db.addMember group user = .ok (added, db')) :
    added = false ∧ (group, user) ∈ db.members ∧ db' = db ∨
      added = true ∧ (group, user) ∉ db.members ∧ db.groupExists group = true ∧
        db.userExists user = true ∧
        db' = { db with members := db.members ++ [(group, user)] } := by
  simp only [addMember, bind_eq_ok_iff, ite_eq_ok_iff, pure_eq_ok_iff, throw_eq_ok_iff,
    Prod.mk.injEq] at h
  obtain ⟨_, -, ⟨hmember, rfl, rfl⟩ | ⟨hmember, h⟩⟩ := h
  · exact .inl ⟨rfl, by simpa using hmember, rfl⟩
  obtain ⟨-, _, h, -⟩ | ⟨hthere, rfl, rfl⟩ := h
  · exact h.elim
  · simp only [Bool.not_eq_true', Bool.not_eq_false, Bool.and_eq_true] at hthere
    exact .inr ⟨rfl, by simpa using hmember, hthere.1, hthere.2, rfl⟩

theorem removeMember_ok {group : GroupId} {user : UserId} {removed : Bool}
    (h : db.removeMember group user = .ok (removed, db')) :
    removed = false ∧ (group, user) ∉ db.members ∧ db' = db ∨
      removed = true ∧ (group, user) ∈ db.members ∧
        db' = { db with members := db.members.filter (· ≠ (group, user)) } := by
  simp only [removeMember, bind_eq_ok_iff, ite_eq_ok_iff, pure_eq_ok_iff, Prod.mk.injEq] at h
  obtain ⟨hmember, rfl, rfl⟩ | ⟨hmember, _, -, rfl, rfl⟩ := h
  · exact .inl ⟨rfl, by simpa using hmember, rfl⟩
  · exact .inr ⟨rfl, by simpa using hmember, rfl⟩

theorem deleteGroup_ok {group : GroupId} {deleted : Bool}
    (h : db.deleteGroup group = .ok (deleted, db')) :
    deleted = false ∧ db.groupExists group = false ∧ db' = db ∨
      deleted = true ∧ db.groupExists group = true ∧
        db' = { db with
          groups := db.groups.filter fun row ↦ row.1 ≠ group
          members := db.members.filter fun row ↦ row.1 ≠ group } := by
  simp only [deleteGroup, bind_eq_ok_iff, ite_eq_ok_iff, pure_eq_ok_iff, Prod.mk.injEq] at h
  obtain ⟨hgroup, rfl, rfl⟩ | ⟨hgroup, _, -, h⟩ := h
  · exact .inl ⟨rfl, by simpa using hgroup, rfl⟩
  obtain ⟨-, _, -, rfl, rfl⟩ | ⟨-, rfl, rfl⟩ := h
  · exact .inr ⟨rfl, by simpa using hgroup, rfl⟩
  · exact .inr ⟨rfl, by simpa using hgroup, rfl⟩

theorem subscribe_ok {channel : ChannelId} {user : UserId}
    (h : db.subscribe channel user = .ok db') :
    db.isSubscribed channel user = true ∧ db' = db ∨
      db.isSubscribed channel user = false ∧ db.channelExists channel = true ∧
        db.userExists user = true ∧
        db' = { db with subscriptions := db.subscriptions ++ [(channel, user)] } := by
  simp only [subscribe, bind_eq_ok_iff, ite_eq_ok_iff, pure_eq_ok_iff, throw_eq_ok_iff] at h
  obtain ⟨_, -, ⟨hsubscribed, rfl⟩ | ⟨hsubscribed, h⟩⟩ := h
  · exact .inl ⟨hsubscribed, rfl⟩
  obtain ⟨-, _, h, -⟩ | ⟨hthere, rfl⟩ := h
  · exact h.elim
  · simp only [Bool.not_eq_true', Bool.not_eq_false, Bool.and_eq_true] at hthere
    exact .inr ⟨by simpa using hsubscribed, hthere.1, hthere.2, rfl⟩

theorem unsubscribe_ok {channel : ChannelId} {user : UserId}
    (h : db.unsubscribe channel user = .ok db') :
    db.isSubscribed channel user = false ∧ db' = db ∨
      db.isSubscribed channel user = true ∧
        db' = { db with subscriptions := db.subscriptions.filter (· ≠ (channel, user)) } := by
  simp only [unsubscribe, bind_eq_ok_iff, ite_eq_ok_iff, pure_eq_ok_iff] at h
  obtain ⟨hsubscribed, rfl⟩ | ⟨hsubscribed, _, -, rfl⟩ := h
  · exact .inl ⟨by simpa using hsubscribed, rfl⟩
  · exact .inr ⟨by simpa using hsubscribed, rfl⟩

/-! ## What leaves messages alone -/

/-- Messages and index are the same in both databases. -/
def SameHistory (db db' : Database) : Prop :=
  db'.messages = db.messages ∧ db'.visibility = db.visibility

theorem SameHistory.trans {db₁ db₂ db₃ : Database} (h : SameHistory db₁ db₂)
    (h' : SameHistory db₂ db₃) : SameHistory db₁ db₃ :=
  ⟨h'.1.trans h.1, h'.2.trans h.2⟩

theorem SameHistory.indexIsSound (h : SameHistory db db') (hsound : db.IndexIsSound) :
    db'.IndexIsSound := by
  unfold IndexIsSound
  rw [h.1, h.2]
  exact hsound

theorem sameHistory_addMembers (group : GroupId) (users : List UserId) :
    SameHistory db (db.addMembers group users).2 := by
  induction users generalizing db with
  | nil => exact ⟨rfl, rfl⟩
  | cons user users ih =>
    rw [addMembers]
    split
    · exact ⟨rfl, rfl⟩
    · rename_i added db₁ hadd
      have hfirst : SameHistory db db₁ := by
        obtain ⟨-, -, rfl⟩ | ⟨-, -, -, -, rfl⟩ := addMember_ok hadd <;> exact ⟨rfl, rfl⟩
      exact hfirst.trans ih

theorem sameHistory_createGroup (name : String) (users : List UserId) :
    SameHistory db (db.createGroup name users).2 := by
  rcases createGroup_cases db name users with ⟨e, h⟩ | ⟨group, -, -, h⟩
  · rw [h]
    exact ⟨rfl, rfl⟩
  · rw [h]
    have hfirst : SameHistory db { db with groups := db.groups ++ [(group, name)] } := ⟨rfl, rfl⟩
    exact hfirst.trans (sameHistory_addMembers group users)

end Database

end WhisperChat
