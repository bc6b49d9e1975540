import AddMessenger.BlobStore
import AddMessenger.Streaks

/-!
# A connection to a DHT node

`handle_connection` of `dht-core/src/dht_node.rs` with `handle_get` and `handle_pir_query`: the
loop over the frames of one connection. In stealth mode a refused request is answered like a
found record that is empty; bad frames in a row are logged. The comparison of the clocks and the
answers of limiters, store and registry are inputs, and a reply is its type and its payload.
-/

namespace DhtConnection

open DhtNode Protocol Signatures Streaks
open BlobStore (Node dhtError seqNumber handleBlobGet putNode blobPutNode)

variable {P : Primitives}

def dhtFound (key value salt : String) (seq : Int64) : WireEnvelope :=
  ⟨"dht-found", .object [("key", .string key), ("salt", .string salt),
    ("seq", .number (seqNumber seq)), ("value", .string value)], ""⟩

def replyEnvelope : DhtReply → WireEnvelope
  | .found key value salt seq => dhtFound key value salt seq
  | .error key message => dhtError key message

def stealthResponse : WireEnvelope :=
  ⟨"dht-found", .object [("key", .string ""), ("salt", .string ""),
    ("seq", .number (.posInt 0)), ("value", .string "")], ""⟩

/-- The decoy in stealth mode, else the error. -/
def refusal (stealth : Bool) (key message : String) : WireEnvelope :=
  if stealth then stealthResponse else dhtError key message

/-- What the registry makes of a query; the bytes are in base64. -/
inductive PirAnswer where
  | invalid
  | notFound
  | found (binData dhtEphemeralPk nonce : String)

/-- What one request is answered by the limiters, the store and the registry. -/
structure Answers where
  getAllowed : Bool
  reads : Bool
  put : PutAnswers
  blob : BlobAnswers
  secs : Int64
  pir : PirAnswer
  now : Nat

structure LogLine where
  action : String
  detail : String

def handleGet (stealth : Bool) (n : Node P) (env : WireEnvelope) (reads : Bool) : WireEnvelope :=
  let key := (env.payloadStr "key").getD ""
  if !validateNullId key then refusal stealth key "invalid key format"
  else if !reads then dhtError key "storage error"
  else
    match n.rows.lookup key with
    | some row => dhtFound key row.value row.salt row.seq
    | none => dhtError key "not found"

def handlePirQuery (env : WireEnvelope) (answer : PirAnswer) : WireEnvelope :=
  if (env.payloadStr "query").isNone then dhtError "" "missing query"
  else
    match answer with
    | .invalid => dhtError "" "invalid query format"
    | .notFound => dhtError "" "bin not found"
    | .found binData dhtEphemeralPk nonce =>
      ⟨"pir-response", .object [("bin_data", .string binData),
        ("dht_ephemeral_pk", .string dhtEphemeralPk), ("nonce", .string nonce)], ""⟩

/-- `handle_blob_get`, with a store that may fail. -/
def blobGet (n : Node P) (env : WireEnvelope) (reads : Bool) : WireEnvelope :=
  match (env.payloadStr "key").filter (· != "") with
  | some key => if reads then handleBlobGet n env else dhtError key "storage error"
  | none => handleBlobGet n env

/-- The reply to a fresh envelope, what is logged, and the node afterwards. -/
def dispatch (argon2id : Argon2id) (stealth : Bool) (n : Node P) (env : WireEnvelope)
    (a : Answers) : WireEnvelope × List LogLine × Node P :=
  match env.msgType with
  | "dht-put" =>
    let (reply, n) := putNode argon2id n env a.put a.now
    (replyEnvelope reply,
      if a.put.allowed then []
      else [⟨"PUT_RATE_LIMITED", "publisher=" ++ (env.payloadStr "publisher_fp").getD ""⟩], n)
  | "dht-get" =>
    if !a.getAllowed then
      (refusal stealth "" "rate limited",
        [⟨"GET_RATE_LIMITED", "dht-get rate limit exceeded"⟩], n)
    else (handleGet stealth n env a.reads, [], n)
  | "pir-query" => (handlePirQuery env a.pir, [], n)
  | "blob-put" =>
    let (reply, n) := blobPutNode n env a.blob a.secs a.now
    (replyEnvelope reply, [], n)
  | "blob-get" => (blobGet n env a.reads, [], n)
  | other =>
    (refusal stealth ((env.payloadStr "key").getD "") ("unexpected type: " ++ other),
      [⟨"BAD_TYPE", other⟩], n)

/-- What comes next; a text is an envelope or the error of reading it, and its time may be
within `POW_MAX_AGE` of the clock. -/
inductive Frame where
  | text (envelope : Except String WireEnvelope) (fresh : Bool)
  | other
  | close
  | failed

def Frame.goesOn : Frame → Bool
  | .close | .failed => false
  | .text _ _ | .other => true

structure Session (P : Primitives) where
  node : Node P
  consecutiveFailures : UInt32
  log : List LogLine

def maxFailures : UInt32 := 10

def Session.fail (s : Session P) (detail : String) : Session P :=
  let failures := s.consecutiveFailures + 1
  { s with
    consecutiveFailures := failures
    log := if failures = maxFailures then s.log ++ [⟨"SCANNER", detail⟩] else s.log }

def answerText (argon2id : Argon2id) (stealth : Bool) (s : Session P)
    (envelope : Except String WireEnvelope) (fresh : Bool) (a : Answers) :
    WireEnvelope × Session P :=
  match envelope with
  | .error e => (refusal stealth "" ("bad envelope: " ++ e), s.fail "bad_envelope x10")
  | .ok env =>
    if !fresh then
      (refusal stealth ((env.payloadStr "key").getD "") "stale timestamp",
        s.fail "stale_timestamp x10")
    else
      let (reply, lines, node) := dispatch argon2id stealth s.node env a
      (reply, ⟨node, 0, s.log ++ lines⟩)

/-- The replies to the frames, and the session after the last one that is read. -/
def serve (argon2id : Argon2id) (stealth : Bool) :
    Session P → List (Frame × Answers) → List WireEnvelope × Session P
  | s, [] => ([], s)
  | s, (.text envelope fresh, a) :: rest =>
    let (reply, s) := answerText argon2id stealth s envelope fresh a
    let (replies, s) := serve argon2id stealth s rest
    (reply :: replies, s)
  | s, (.other, _) :: rest => serve argon2id stealth s rest
  | s, (.close, _) :: _ => ([], s)
  | s, (.failed, _) :: _ => ([], s)

def handleConnection (argon2id : Argon2id) (stealth : Bool) (n : Node P)
    (frames : List (Frame × Answers)) : List WireEnvelope × Session P :=
  let (replies, s) := serve argon2id stealth ⟨n, 0, []⟩ frames
  (replies,
    if 5 ≤ s.consecutiveFailures then
      { s with log := s.log ++
        [⟨"SUSPECT", toString s.consecutiveFailures ++ " consecutive failures"⟩] }
    else s)

/-- The frames that are read. -/
def received (frames : List (Frame × Answers)) : List (Frame × Answers) :=
  frames.takeWhile fun x => x.1.goesOn

/-- A request that a node answers for what it is, also in stealth mode. -/
def Unmasks (env : WireEnvelope) (a : Answers) : Prop :=
  env.msgType ∈ ["dht-put", "pir-query", "blob-put", "blob-get"] ∨
    (env.msgType = "dht-get" ∧ a.getAllowed = true ∧
      validateNullId ((env.payloadStr "key").getD "") = true)

def UnmasksIn : Frame × Answers → Prop
  | (.text (.ok env) true, a) => Unmasks env a
  | _ => False

section

variable {argon2id : Argon2id}

theorem validateNullId_empty : validateNullId "" = false := by decide +kernel

theorem dhtError_ne (key message : String) : dhtError key message ≠ stealthResponse := by
  simp [dhtError, stealthResponse]

theorem dhtFound_ne {key : String} (named : key ≠ "") (value salt : String) (seq : Int64) :
    dhtFound key value salt seq ≠ stealthResponse := by
  simp [dhtFound, stealthResponse, named]

theorem named_of_valid {key : String} (valid : validateNullId key = true) : key ≠ "" := by
  rintro rfl
  rw [validateNullId_empty] at valid
  cases valid

theorem putNode_ne (n : Node P) (env : WireEnvelope) (answers : PutAnswers) (now : Nat) :
    replyEnvelope (putNode argon2id n env answers now).1 ≠ stealthResponse := by
  rw [putNode]
  cases reply : (handlePut argon2id n.state env answers now).1 with
  | found key value salt seq => exact dhtFound_ne (named_of_valid (handlePut_nullId reply)) _ _ _
  | error key message => exact dhtError_ne key message

theorem blobPutNode_ne (n : Node P) (env : WireEnvelope) (answers : BlobAnswers) (secs : Int64)
    (now : Nat) : replyEnvelope (blobPutNode n env answers secs now).1 ≠ stealthResponse := by
  rw [blobPutNode]
  cases reply : (handleBlobPut n.state.cache env answers now).1 with
  | found key value salt seq =>
    obtain ⟨given, -⟩ := handleBlobPut_eq_found reply
    refine dhtFound_ne ?_ _ _ _
    rintro rfl
    have nothing : (env.payloadStr "key").filter (· != "") = none := by
      rw [given]
      rfl
    rw [handleBlobPut, nothing] at reply
    cases reply
  | error key message => exact dhtError_ne key message

theorem handlePirQuery_ne (env : WireEnvelope) (answer : PirAnswer) :
    handlePirQuery env answer ≠ stealthResponse := by
  unfold handlePirQuery
  split
  · exact dhtError_ne _ _
  · cases answer with
    | invalid => exact dhtError_ne _ _
    | notFound => exact dhtError_ne _ _
    | found binData dhtEphemeralPk nonce => simp [stealthResponse]

theorem handleBlobGet_ne (n : Node P) (env : WireEnvelope) :
    handleBlobGet n env ≠ stealthResponse := by
  unfold handleBlobGet
  split
  · exact dhtError_ne _ _
  · split
    · exact dhtError_ne _ _
    · simp [stealthResponse]

theorem blobGet_ne (n : Node P) (env : WireEnvelope) (reads : Bool) :
    blobGet n env reads ≠ stealthResponse := by
  unfold blobGet
  split
  · split
    · exact handleBlobGet_ne n env
    · exact dhtError_ne _ _
  · exact handleBlobGet_ne n env

theorem handleGet_eq_decoy_iff {n : Node P} {env : WireEnvelope} {reads : Bool} :
    handleGet true n env reads = stealthResponse ↔
      validateNullId ((env.payloadStr "key").getD "") = false := by
  cases valid : validateNullId ((env.payloadStr "key").getD "") with
  | false =>
    simp only [handleGet, valid]
    exact iff_of_true rfl trivial
  | true =>
    have named := named_of_valid valid
    simp only [handleGet, valid, Bool.not_true, Bool.false_eq_true, if_false]
    refine iff_of_false ?_ Bool.noConfusion
    split
    · exact dhtError_ne _ _
    · split
      · exact dhtFound_ne named _ _ _
      · exact dhtError_ne _ _

/-- A fresh envelope gets the decoy unless it unmasks the node. -/
theorem dispatch_eq_decoy_iff {n : Node P} {env : WireEnvelope} {a : Answers} :
    (dispatch argon2id true n env a).1 = stealthResponse ↔ ¬ Unmasks env a := by
  unfold dispatch Unmasks
  split
  · next put => simp [put, putNode_ne]
  · next get =>
    cases allowed : a.getAllowed with
    | false => simp [get, refusal]
    | true =>
      have decoy : handleGet true n env a.reads = stealthResponse ↔ _ := handleGet_eq_decoy_iff
      simp [get, decoy]
  · next query => simp [query, handlePirQuery_ne]
  · next put => simp [put, blobPutNode_ne]
  · next get => simp [get, blobGet_ne]
  · next no_put no_get no_query no_blob_put no_blob_get =>
    have none_named : ¬ (env.msgType ∈ ["dht-put", "pir-query", "blob-put", "blob-get"]) := by
      simp only [List.mem_cons, List.not_mem_nil, or_false, not_or]
      exact ⟨no_put, no_query, no_blob_put, no_blob_get⟩
    refine iff_of_true rfl (not_or_intro none_named ?_)
    exact fun asks => no_get asks.1

theorem answerText_eq_decoy_iff {s : Session P} {envelope : Except String WireEnvelope}
    {fresh : Bool} {a : Answers} :
    (answerText argon2id true s envelope fresh a).1 = stealthResponse ↔
      ¬ UnmasksIn (.text envelope fresh, a) := by
  cases envelope with
  | error e => simp [answerText, refusal, UnmasksIn]
  | ok env =>
    cases fresh with
    | false => simp [answerText, refusal, UnmasksIn]
    | true => exact dispatch_eq_decoy_iff

theorem serve_eq_decoys_iff (s : Session P) (frames : List (Frame × Answers)) :
    (∀ reply ∈ (serve argon2id true s frames).1, reply = stealthResponse) ↔
      ∀ x ∈ received frames, ¬ UnmasksIn x := by
  induction frames generalizing s with
  | nil => simp [serve, received]
  | cons x rest ih =>
    obtain ⟨frame, a⟩ := x
    cases frame with
    | text envelope fresh =>
      have reads : received ((.text envelope fresh, a) :: rest) =
          (.text envelope fresh, a) :: received rest := rfl
      rw [reads, List.forall_mem_cons, serve, List.forall_mem_cons, answerText_eq_decoy_iff, ih]
    | other =>
      have reads : received ((.other, a) :: rest) = (.other, a) :: received rest := rfl
      have silent : ¬ UnmasksIn (.other, a) := fun unmasks => unmasks
      rw [reads, List.forall_mem_cons, serve, ih]
      exact ⟨fun later => ⟨silent, later⟩, fun all => all.2⟩
    | close => simp [serve, received, Frame.goesOn]
    | failed => simp [serve, received, Frame.goesOn]

/-- In stealth mode all answers of a connection are the decoy exactly when nothing that is read
unmasks the node. -/
theorem stealth_iff (n : Node P) (frames : List (Frame × Answers)) :
    (∀ reply ∈ (handleConnection argon2id true n frames).1, reply = stealthResponse) ↔
      ∀ x ∈ received frames, ¬ UnmasksIn x :=
  serve_eq_decoys_iff _ frames

end

/-- Whether a text frame counts as a failure. -/
def isBad : Frame × Answers → Option Bool
  | (.text (.error _) _, _) => some true
  | (.text (.ok _) fresh, _) => some (!fresh)
  | _ => none

def marks (frames : List (Frame × Answers)) : List Bool := (received frames).filterMap isBad

def scannerLines (log : List LogLine) : ℕ := log.countP fun line => line.action == "SCANNER"

section

variable (argon2id : Argon2id) (stealth : Bool)

theorem dispatch_lines (n : Node P) (env : WireEnvelope) (a : Answers) :
    ∀ line ∈ (dispatch argon2id stealth n env a).2.1,
      line.action ≠ "SCANNER" ∧ line.action ≠ "SUSPECT" := by
  unfold dispatch
  split
  · simp only
    split <;> simp
  · split <;> simp
  all_goals simp

theorem dispatch_scannerLines (n : Node P) (env : WireEnvelope) (a : Answers) :
    scannerLines (dispatch argon2id stealth n env a).2.1 = 0 := by
  apply List.countP_eq_zero.mpr
  intro line member
  simpa using (dispatch_lines argon2id stealth n env a line member).1

theorem toNat_succ (c : UInt32) : (c + 1).toNat = (c.toNat + 1) % 2 ^ 32 := by
  rw [UInt32.toNat_add]
  rfl

theorem fail_scannerLines (s : Session P) (detail : String) :
    scannerLines (s.fail detail).log =
      scannerLines s.log + if (s.consecutiveFailures.toNat + 1) % 2 ^ 32 = 10 then 1 else 0 := by
  have reaches : s.consecutiveFailures + 1 = maxFailures ↔
      (s.consecutiveFailures.toNat + 1) % 2 ^ 32 = 10 := by
    rw [← UInt32.toNat_inj, toNat_succ]
    rfl
  by_cases ten : s.consecutiveFailures + 1 = maxFailures
  · rw [Session.fail, if_pos ten, if_pos (reaches.mp ten)]
    simp [scannerLines]
  · rw [Session.fail, if_neg ten, if_neg fun is => ten (reaches.mpr is)]
    rfl

theorem fail_failures (s : Session P) (detail : String) :
    (s.fail detail).consecutiveFailures.toNat = (s.consecutiveFailures.toNat + 1) % 2 ^ 32 :=
  toNat_succ s.consecutiveFailures

theorem answerText_bad (s : Session P) {envelope : Except String WireEnvelope} {fresh : Bool}
    {a : Answers} (bad : isBad (.text envelope fresh, a) = some true) :
    ∃ detail, (answerText argon2id stealth s envelope fresh a).2 = s.fail detail := by
  cases envelope with
  | error e => exact ⟨_, rfl⟩
  | ok env =>
    cases fresh with
    | false => exact ⟨_, rfl⟩
    | true => cases bad

theorem answerText_good (s : Session P) {envelope : Except String WireEnvelope} {fresh : Bool}
    {a : Answers} (good : isBad (.text envelope fresh, a) = some false) :
    scannerLines (answerText argon2id stealth s envelope fresh a).2.log = scannerLines s.log ∧
      (answerText argon2id stealth s envelope fresh a).2.consecutiveFailures = 0 := by
  cases envelope with
  | error e => cases good
  | ok env =>
    cases fresh with
    | false => cases good
    | true =>
      refine ⟨?_, rfl⟩
      have silent := dispatch_scannerLines argon2id stealth s.node env a
      simp only [answerText, Bool.not_true, Bool.false_eq_true, if_false]
      rw [scannerLines, List.countP_append, ← scannerLines, ← scannerLines, silent, Nat.add_zero]

theorem isBad_text (envelope : Except String WireEnvelope) (fresh : Bool) (a : Answers) :
    ∃ bad, isBad (.text envelope fresh, a) = some bad := by
  cases envelope with
  | error e => exact ⟨true, rfl⟩
  | ok env => exact ⟨!fresh, rfl⟩

theorem serve_text (s : Session P) (envelope : Except String WireEnvelope) (fresh : Bool)
    (a : Answers) (rest : List (Frame × Answers)) :
    (serve argon2id stealth s ((.text envelope fresh, a) :: rest)).2 =
      (serve argon2id stealth (answerText argon2id stealth s envelope fresh a).2 rest).2 := rfl

/-- The session counts as the counter of streaks does. -/
theorem serve_counted (s : Session P) (frames : List (Frame × Answers)) :
    scannerLines (serve argon2id stealth s frames).2.log = scannerLines s.log +
        (counted (2 ^ 32) 10 s.consecutiveFailures.toNat (marks frames)).1 ∧
      (serve argon2id stealth s frames).2.consecutiveFailures.toNat =
        (counted (2 ^ 32) 10 s.consecutiveFailures.toNat (marks frames)).2 := by
  induction frames generalizing s with
  | nil => exact ⟨rfl, rfl⟩
  | cons x rest ih =>
    obtain ⟨frame, a⟩ := x
    cases frame with
    | text envelope fresh =>
      obtain ⟨bad, is⟩ := isBad_text envelope fresh a
      have reads : marks ((.text envelope fresh, a) :: rest) = bad :: marks rest := by
        simp [marks, received, Frame.goesOn, is]
      obtain ⟨lines, failures⟩ := ih (answerText argon2id stealth s envelope fresh a).2
      rw [serve_text, reads]
      cases bad with
      | true =>
        obtain ⟨detail, failed⟩ := answerText_bad argon2id stealth s is
        rw [failed, fail_failures] at lines failures
        rw [fail_scannerLines] at lines
        rw [failed, counted]
        refine ⟨?_, failures⟩
        rw [lines]
        exact Nat.add_assoc _ _ _
      | false =>
        obtain ⟨same, zero⟩ := answerText_good argon2id stealth s is
        rw [same, zero] at lines
        rw [zero] at failures
        exact ⟨lines, failures⟩
    | other => exact ih s
    | close => exact ⟨rfl, rfl⟩
    | failed => exact ⟨rfl, rfl⟩

theorem answerText_unsuspected {s : Session P} (before : ∀ line ∈ s.log, line.action ≠ "SUSPECT")
    (envelope : Except String WireEnvelope) (fresh : Bool) (a : Answers) :
    ∀ line ∈ (answerText argon2id stealth s envelope fresh a).2.log, line.action ≠ "SUSPECT" := by
  have failed (detail : String) : ∀ line ∈ (s.fail detail).log, line.action ≠ "SUSPECT" := by
    unfold Session.fail
    intro line member
    simp only at member
    split at member
    · rcases List.mem_append.mp member with old | new
      · exact before line old
      · rw [List.mem_singleton.mp new]
        simp
    · exact before line member
  cases envelope with
  | error e => exact failed _
  | ok env =>
    cases fresh with
    | false => exact failed _
    | true =>
      intro line member
      rcases List.mem_append.mp member with old | new
      · exact before line old
      · exact (dispatch_lines argon2id stealth s.node env a line new).2

theorem serve_unsuspected {s : Session P} (before : ∀ line ∈ s.log, line.action ≠ "SUSPECT")
    (frames : List (Frame × Answers)) :
    ∀ line ∈ (serve argon2id stealth s frames).2.log, line.action ≠ "SUSPECT" := by
  induction frames generalizing s with
  | nil => exact before
  | cons x rest ih =>
    obtain ⟨frame, a⟩ := x
    cases frame with
    | text envelope fresh =>
      exact ih (answerText_unsuspected argon2id stealth before envelope fresh a)
    | other => exact ih before
    | close => exact before
    | failed => exact before

/-- The lines of a connection about its failures are a matter of the streaks of bad texts. -/
theorem reports_exact (n : Node P) (frames : List (Frame × Answers)) :
    scannerLines (handleConnection argon2id stealth n frames).2.log =
        allHits (2 ^ 32) 10 (streaks (marks frames)) ∧
      ((∃ line ∈ (handleConnection argon2id stealth n frames).2.log, line.action = "SUSPECT") ↔
        5 ≤ last (marks frames) % 2 ^ 32) := by
  obtain ⟨lines, failures⟩ := serve_counted argon2id stealth ⟨n, 0, []⟩ frames
  obtain ⟨sum, ends⟩ := counted_eq (by decide : 0 < 10) (by decide : 10 < 2 ^ 32) 0 (marks frames)
  have unlogged : ∀ line ∈ (⟨n, 0, []⟩ : Session P).log, line.action ≠ "SUSPECT" :=
    fun line member => absurd member List.not_mem_nil
  have unsuspected := serve_unsuspected argon2id stealth unlogged frames
  generalize served : (serve argon2id stealth ⟨n, 0, []⟩ frames).2 = s at lines failures unsuspected
  have ended : (handleConnection argon2id stealth n frames).2 =
      if 5 ≤ s.consecutiveFailures then
        { s with log := s.log ++
          [⟨"SUSPECT", toString s.consecutiveFailures ++ " consecutive failures"⟩] }
      else s := by
    rw [← served]
    rfl
  have counts : scannerLines s.log =
      allHits (2 ^ 32) 10 (streaks (marks frames)) := by
    rw [hits_zero (by decide) (by decide), Nat.add_zero] at sum
    rw [streaks, ← sum, lines]
    exact Nat.zero_add _
  have bound : 5 ≤ s.consecutiveFailures ↔ 5 ≤ last (marks frames) % 2 ^ 32 := by
    rw [UInt32.le_iff_toNat_le, failures, last, ← ends]
    rfl
  rw [ended, ← bound]
  by_cases suspect : 5 ≤ s.consecutiveFailures
  · rw [if_pos suspect]
    refine ⟨?_, iff_of_true ⟨_, List.mem_append_right _ List.mem_cons_self, rfl⟩ suspect⟩
    rw [← counts]
    simp [scannerLines]
  · rw [if_neg suspect]
    refine ⟨counts, iff_of_false ?_ suspect⟩
    rintro ⟨line, member, is⟩
    exact unsuspected line member is

theorem scannerLines_eq_zero_iff (log : List LogLine) :
    scannerLines log = 0 ↔ ∀ line ∈ log, line.action ≠ "SCANNER" := by
  rw [scannerLines, List.countP_eq_zero]
  simp

/-- A connection is reported as often as its streaks of bad texts come to ten, and at its end when
the last one has five; it is not reported at all exactly when no streak has ten texts and the last
one fewer than five. -/
theorem reports_iff (n : Node P) (frames : List (Frame × Answers)) :
    scannerLines (handleConnection argon2id stealth n frames).2.log =
        allHits (2 ^ 32) 10 (streaks (marks frames)) ∧
      ((∃ line ∈ (handleConnection argon2id stealth n frames).2.log, line.action = "SUSPECT") ↔
        5 ≤ last (marks frames) % 2 ^ 32) ∧
      ((∀ line ∈ (handleConnection argon2id stealth n frames).2.log,
          line.action ≠ "SCANNER" ∧ line.action ≠ "SUSPECT") ↔
        (∀ streak ∈ streaks (marks frames), streak < 10) ∧ last (marks frames) < 5) := by
  obtain ⟨scanner, suspect⟩ := reports_exact argon2id stealth n frames
  refine ⟨scanner, suspect, ?_⟩
  generalize (handleConnection argon2id stealth n frames).2.log = log at scanner suspect
  have no_scanner : (∀ line ∈ log, line.action ≠ "SCANNER") ↔
      ∀ streak ∈ streaks (marks frames), streak < 10 := by
    rw [← scannerLines_eq_zero_iff, scanner, allHits_eq_zero_iff (by decide) (by decide)]
  constructor
  · intro unreported
    have short := no_scanner.mp fun line member => (unreported line member).1
    have few : last (marks frames) < 10 := short _ (lastFrom_mem 0 (marks frames))
    refine ⟨short, ?_⟩
    by_contra many
    rw [Nat.mod_eq_of_lt (by omega)] at suspect
    obtain ⟨line, member, is⟩ := suspect.mpr (by omega)
    exact (unreported line member).2 is
  · rintro ⟨short, few⟩ line member
    refine ⟨no_scanner.mpr short line member, fun is => ?_⟩
    have many := suspect.mp ⟨line, member, is⟩
    rw [Nat.mod_eq_of_lt (by omega)] at many
    omega

end

end DhtConnection
