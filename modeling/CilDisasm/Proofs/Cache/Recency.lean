import Mathlib.Data.Finset.Card
import CilDisasm.Proofs.Cache.History

/-!
# What a cache still knows

A cache of some capacity keeps the answers that were used last. Whether a query finds its
answer can therefore be read off the requests that came before, without a look at the cache:
since the answer was last given out, fewer other queries of the same kind than the capacity
must have been answered. Failures leave no trace.
-/

namespace CilDisasm

/-!
# Orders of use

Keys are listed in the order of their last use, the most recent first. What a cache keeps is
the front of this list, and what is behind the front has no influence on later fronts.
-/

section Orders

variable {κ : Type} [DecidableEq κ]

def moveToFront (order : List κ) (key : κ) : List κ :=
  key :: order.erase key

theorem mem_moveToFront {order : List κ} {key other : κ} :
    other ∈ moveToFront order key <-> other = key ∨ other ∈ order := by
  rw [moveToFront, List.mem_cons]
  by_cases h : other = key
  · simp [h]
  · rw [List.mem_erase_of_ne h]

theorem nodup_moveToFront {order : List κ} (h : order.Nodup) (key : κ) :
    (moveToFront order key).Nodup :=
  List.nodup_cons.mpr ⟨h.not_mem_erase, h.erase key⟩

theorem take_erase_take (order : List κ) (key : κ) (capacity : Nat) :
    ((order.take (capacity + 1)).erase key).take capacity =
      (order.erase key).take capacity := by
  induction order generalizing capacity with
  | nil => rfl
  | cons first rest ih =>
      rw [List.take_succ_cons]
      by_cases hfirst : first = key
      · subst hfirst
        rw [List.erase_cons_head, List.erase_cons_head, List.take_take, Nat.min_self]
      · rw [List.erase_cons_tail (by simpa using hfirst),
          List.erase_cons_tail (by simpa using hfirst)]
        cases capacity with
        | zero => rfl
        | succ capacity => rw [List.take_succ_cons, List.take_succ_cons, ih]

theorem take_moveToFront_take (order : List κ) (key : κ) (capacity : Nat) :
    (moveToFront (order.take capacity) key).take capacity =
      (moveToFront order key).take capacity := by
  cases capacity with
  | zero => rfl
  | succ capacity =>
      rw [moveToFront, moveToFront, List.take_succ_cons, List.take_succ_cons,
        take_erase_take]

theorem exists_foldl_moveToFront {uses ahead : List κ} {key : κ} (behind : List κ)
    (hahead : ahead.Nodup) (hkey : key ∉ ahead) (huses : key ∉ uses) :
    exists front rest : List κ,
      uses.foldl moveToFront (ahead ++ key :: behind) = front ++ key :: rest ∧
        front.Nodup ∧ key ∉ front ∧
        forall other, other ∈ front <-> other ∈ uses ∨ other ∈ ahead := by
  -- A use takes its key from behind or from the front, so both change along the way.
  induction uses generalizing ahead behind with
  | nil => exact ⟨ahead, behind, rfl, hahead, hkey, fun other => by simp⟩
  | cons use uses ih =>
      rcases List.ne_and_not_mem_of_not_mem_cons huses with ⟨hne, hrest⟩
      have hfront : exists behind' : List κ,
          moveToFront (ahead ++ key :: behind) use =
            moveToFront ahead use ++ key :: behind' := by
        by_cases hmem : use ∈ ahead
        · exact ⟨behind, by rw [moveToFront, moveToFront, List.erase_append_left _ hmem]; rfl⟩
        · refine ⟨behind.erase use, ?_⟩
          rw [moveToFront, moveToFront, List.erase_append_right _ hmem,
            List.erase_of_not_mem hmem, List.erase_cons_tail (by simpa using hne)]
          rfl
      rcases hfront with ⟨behind', hmoved⟩
      have hnotMem : key ∉ moveToFront ahead use := by
        rw [mem_moveToFront]
        exact fun hcases => hcases.elim hne hkey
      rcases ih behind' (nodup_moveToFront hahead use) hnotMem hrest with
        ⟨front, rest, hfold, hnodup, hkeyFront, hmem⟩
      refine ⟨front, rest, ?_, hnodup, hkeyFront, ?_⟩
      · rw [List.foldl_cons, hmoved]
        exact hfold
      · intro other
        rw [hmem, mem_moveToFront, List.mem_cons, or_left_comm, or_assoc]

end Orders

/-!
# Reading a history
-/

namespace SymbolCache

def answersOf (kind : SymbolKind) (exchanges : List Exchange) : List Query :=
  (exchanges.filterMap Exchange.answered?).filter (fun query => query.kind = kind)

/-- Since the caches were last cleared the query was answered, and then fewer other queries of
its kind than the capacity were. -/
def Fresh (capacity : Nat) (past : List Exchange) (query : Query) : Prop :=
  exists before : List Exchange, exists last : Exchange, exists later : List Exchange,
    past = before ++ last :: later ∧
      last.answered? = some query ∧
      (forall exchange, exchange ∈ later ->
        exchange.command ≠ .clear ∧ exchange.answered? ≠ some query) ∧
      (answersOf query.kind later).toFinset.card < capacity

/-- What the resolver in force said when it was last asked. -/
def LastSaid (past : List Exchange) (query : Query) (outcome : query.Outcome) : Prop :=
  exists before : List Exchange, exists last : Exchange, exists later : List Exchange,
    past = before ++ last :: later ∧
      query ∈ last.asked ∧
      (forall exchange, exchange ∈ later -> query ∉ exchange.asked) ∧
      last.resolver query = outcome

/-!
# What the caches keep

At any time the caches keep the front of the order in which queries were last answered, with
what was last said to them.
-/

/-- The order of use behind an exchange. -/
def Exchange.reorder (kind : SymbolKind) (order : List Query) : Exchange -> List Query
  | ⟨_, .clear, _, _⟩ => []
  | ⟨_, .resolve query, .ok _, _⟩ =>
      if query.kind = kind then moveToFront order query else order
  | ⟨_, .resolve _, .error _, _⟩ => order

/-- The queries of one kind that were answered since the last clearing, the most recent
first. -/
def recent (kind : SymbolKind) (past : List Exchange) : List Query :=
  past.foldl (Exchange.reorder kind) []

theorem recent_concat (kind : SymbolKind) (past : List Exchange) (exchange : Exchange) :
    recent kind (past ++ [exchange]) = exchange.reorder kind (recent kind past) := by
  rw [recent, List.foldl_append]
  rfl

theorem Exchange.reorder_eq (kind : SymbolKind) (order : List Query) (exchange : Exchange) :
    (exchange.command = .clear ∧ exchange.answered? = none ∧
        exchange.reorder kind order = []) ∨
      exchange.command ≠ .clear ∧
        exchange.reorder kind order =
          match exchange.answered? with
          | some query => if query.kind = kind then moveToFront order query else order
          | none => order := by
  rcases exchange with ⟨resolver, command, reply, asked⟩
  cases command with
  | clear => exact Or.inl ⟨rfl, rfl, rfl⟩
  | resolve query =>
      right
      refine ⟨by simp, ?_⟩
      cases reply <;> rfl

theorem nodup_recent (kind : SymbolKind) (past : List Exchange) : (recent kind past).Nodup := by
  induction past using List.reverseRecOn with
  | nil => exact List.nodup_nil
  | append_singleton past exchange ih =>
      rw [recent_concat]
      rcases exchange.reorder_eq kind (recent kind past) with ⟨-, -, heq⟩ | ⟨-, heq⟩
      · rw [heq]
        exact List.nodup_nil
      · rw [heq]
        split
        · split
          · exact nodup_moveToFront ih _
          · exact ih
        · exact ih

theorem foldl_reorder {kind : SymbolKind} {later : List Exchange} (order : List Query)
    (h : forall exchange, exchange ∈ later -> exchange.command ≠ .clear) :
    later.foldl (Exchange.reorder kind) order =
      (answersOf kind later).foldl moveToFront order := by
  induction later generalizing order with
  | nil => rfl
  | cons exchange rest ih =>
      rcases List.forall_mem_cons.mp h with ⟨hfirst, hrest⟩
      rcases exchange.reorder_eq kind order with ⟨hclear, -, -⟩ | ⟨-, heq⟩
      · exact absurd hclear hfirst
      · rw [List.foldl_cons, ih _ hrest, heq, answersOf, answersOf, List.filterMap_cons]
        cases exchange.answered? with
        | none => rfl
        | some query =>
            by_cases hkind : query.kind = kind
            · simp [hkind]
            · simp [hkind]

theorem exists_of_mem_recent {kind : SymbolKind} {past : List Exchange} {query : Query}
    (h : query ∈ recent kind past) :
    query.kind = kind ∧
      exists before : List Exchange, exists last : Exchange, exists later : List Exchange,
        past = before ++ last :: later ∧
          last.answered? = some query ∧
          forall exchange, exchange ∈ later ->
            exchange.command ≠ .clear ∧ exchange.answered? ≠ some query := by
  induction past using List.reverseRecOn with
  | nil => cases h
  | append_singleton past exchange ih =>
      rw [recent_concat] at h
      rcases exchange.reorder_eq kind (recent kind past) with ⟨-, -, heq⟩ | ⟨hcommand, heq⟩
      · rw [heq] at h
        cases h
      · rw [heq] at h
        by_cases hlast : exchange.answered? = some query
        · simp only [hlast] at h
          refine ⟨?_, past, exchange, [], rfl, hlast, by simp⟩
          by_cases hkind : query.kind = kind
          · exact hkind
          · rw [if_neg hkind] at h
            exact (ih h).1
        · have hold : query ∈ recent kind past := by
            split at h
            · next other hother =>
                split at h
                · rcases mem_moveToFront.mp h with hsame | hmem
                  · exact absurd (hsame ▸ hother) hlast
                  · exact hmem
                · exact h
            · exact h
          rcases ih hold with ⟨hkind, before, last, later, rfl, hanswered, hlater⟩
          refine ⟨hkind, before, last, later ++ [exchange], by simp, hanswered, ?_⟩
          intro other hother
          rcases List.mem_append.mp hother with hmem | hmem
          · exact hlater other hmem
          · rw [List.mem_singleton.mp hmem]
            exact ⟨hcommand, hlast⟩

/-- The place of a query is the number of others that were answered after it. -/
theorem mem_take_recent_iff_card_lt {capacity : Nat} {before later : List Exchange}
    {last : Exchange} {query : Query} (hlast : last.answered? = some query)
    (hlater : forall exchange, exchange ∈ later ->
      exchange.command ≠ .clear ∧ exchange.answered? ≠ some query) :
    query ∈ (recent query.kind (before ++ last :: later)).take capacity <->
      (answersOf query.kind later).toFinset.card < capacity := by
  have huses : query ∉ answersOf query.kind later := by
    intro hmem
    rcases List.mem_filterMap.mp (List.mem_filter.mp hmem).1 with ⟨exchange, hexchange, hsome⟩
    exact (hlater exchange hexchange).2 hsome
  have hfront : last.reorder query.kind (recent query.kind before) =
      query :: (recent query.kind before).erase query := by
    rcases last.reorder_eq query.kind (recent query.kind before) with
      ⟨-, hnone, -⟩ | ⟨-, heq⟩
    · rw [hlast] at hnone
      cases hnone
    · rw [heq, hlast]
      exact if_pos rfl
  rcases exists_foldl_moveToFront ((recent query.kind before).erase query)
    List.nodup_nil List.not_mem_nil huses with ⟨front, rest, hfold, hnodup, hnotMem, hmem⟩
  have hrecent : recent query.kind (before ++ last :: later) = front ++ query :: rest := by
    rw [recent, List.foldl_append, List.foldl_cons,
      foldl_reorder _ (fun exchange hexchange => (hlater exchange hexchange).1), ← hfold,
      List.nil_append, ← hfront]
    rfl
  have hcard : (answersOf query.kind later).toFinset.card = front.length := by
    rw [← List.toFinset_card_of_nodup hnodup]
    congr 1
    ext other
    simp [hmem]
  rw [hrecent, hcard, List.take_append, List.mem_append]
  constructor
  · intro h
    rcases h with hfound | hfound
    · exact absurd (List.mem_of_mem_take hfound) hnotMem
    · apply Nat.lt_of_sub_pos
      exact List.length_pos_of_mem hfound |>.trans_le (List.length_take_le _ _)
  · intro h
    rcases Nat.exists_eq_add_of_lt h with ⟨room, rfl⟩
    right
    rw [Nat.add_assoc, Nat.add_sub_cancel_left]
    exact List.mem_cons_self

theorem mem_take_recent_iff_fresh {capacity : Nat} {past : List Exchange} {query : Query} :
    query ∈ (recent query.kind past).take capacity <-> Fresh capacity past query := by
  constructor
  · intro h
    rcases exists_of_mem_recent (List.mem_of_mem_take h) with
      ⟨-, before, last, later, rfl, hlast, hlater⟩
    exact ⟨before, last, later, rfl, hlast, hlater,
      (mem_take_recent_iff_card_lt hlast hlater).mp h⟩
  · intro h
    rcases h with ⟨before, last, later, rfl, hlast, hlater, hcard⟩
    exact (mem_take_recent_iff_card_lt hlast hlater).mpr hcard

theorem LastSaid.concat {past : List Exchange} {query : Query} {outcome : query.Outcome}
    (h : LastSaid past query outcome) {exchange : Exchange} (hasked : query ∉ exchange.asked) :
    LastSaid (past ++ [exchange]) query outcome := by
  rcases h with ⟨before, last, later, rfl, hquery, hlater, houtcome⟩
  refine ⟨before, last, later ++ [exchange], by simp, hquery, ?_, houtcome⟩
  intro other hother
  rcases List.mem_append.mp hother with hmem | hmem
  · exact hlater other hmem
  · rw [List.mem_singleton.mp hmem]
    exact hasked

theorem lastSaid_of_asked {past : List Exchange} {exchange : Exchange} {query : Query}
    (hasked : query ∈ exchange.asked) :
    LastSaid (past ++ [exchange]) query (exchange.resolver query) :=
  ⟨past, exchange, [], rfl, hasked, by simp, rfl⟩

structure Tracks (cache : SymbolCache) (capacity : Nat) (past : List Exchange) : Prop where
  capacity_eq : forall kind, cache.capacityOf kind = capacity
  queries_eq : forall kind,
    (cache.entries kind).map Sigma.fst = (recent kind past).take capacity
  lastSaid : forall {kind : SymbolKind} {query : Query} {answer : query.Answer},
    ⟨query, answer⟩ ∈ cache.entries kind -> LastSaid past query (.ok answer)

namespace Tracks

variable {cache next : SymbolCache} {capacity : Nat} {past : List Exchange}

theorem empty (capacity : Nat) : (SymbolCache.empty capacity).Tracks capacity [] where
  capacity_eq kind := by cases kind <;> rfl
  queries_eq kind := by cases kind <;> exact List.take_nil.symm
  lastSaid {kind} _ _ h := by cases kind <;> cases h

theorem map_inFront (h : cache.Tracks capacity past)
    (entry : (query : Query) × query.Answer) (kind : SymbolKind) :
    (inFront entry (cache.entries kind)).map Sigma.fst =
      moveToFront ((recent kind past).take capacity) entry.1 := by
  have hnodup : ((cache.entries kind).map Sigma.fst).Nodup := by
    rw [h.queries_eq]
    exact (nodup_recent kind past).sublist (List.take_sublist capacity _)
  rw [moveToFront, ← h.queries_eq, hnodup.erase_eq_filter, List.filter_map, inFront,
    List.map_cons]
  congr 2
  exact List.filter_congr fun other _ => by simp [bne, beq_eq_decide]

theorem mem_take_recent (h : cache.Tracks capacity past) {kind : SymbolKind}
    {entry : (query : Query) × query.Answer} (hentry : entry ∈ cache.entries kind) :
    entry.1 ∈ (recent kind past).take capacity := by
  rw [← h.queries_eq]
  exact List.mem_map_of_mem hentry

theorem mem_of_mem_inFront {entry other : (query : Query) × query.Answer}
    {entries : List ((query : Query) × query.Answer)} (h : other ∈ inFront entry entries) :
    other = entry ∨ other ∈ entries :=
  (List.mem_cons.mp h).imp_right fun hmem => (List.mem_filter.mp hmem).1

theorem concat_found (h : cache.Tracks capacity past) {resolver : Resolver} {query : Query}
    {answer : query.Answer} (hget : cache.get? query = (some answer, next)) :
    next.Tracks capacity (past ++ [⟨resolver, .resolve query, .ok answer, []⟩]) := by
  rcases entries_of_found hget with ⟨hmem, hnext⟩
  constructor
  · intro kind
    rw [(hnext kind).1, h.capacity_eq]
  · intro kind
    rw [(hnext kind).2, recent_concat, Exchange.reorder]
    split
    · next hkind =>
        subst hkind
        -- The query was among those that are kept, so the front does not grow.
        have hkept := h.mem_take_recent hmem
        have hlength : (moveToFront ((recent query.kind past).take capacity) query).length ≤
            capacity := by
          rw [moveToFront, List.length_cons, List.length_erase_of_mem hkept,
            Nat.sub_add_cancel (List.length_pos_of_mem hkept)]
          exact List.length_take_le _ _
        rw [h.map_inFront, ← take_moveToFront_take, List.take_of_length_le hlength]
    · exact h.queries_eq kind
  · intro kind other stored hstored
    refine LastSaid.concat ?_ List.not_mem_nil
    rw [(hnext kind).2] at hstored
    split at hstored
    · rcases mem_of_mem_inFront hstored with hsame | hold
      · cases hsame
        exact h.lastSaid hmem
      · exact h.lastSaid hold
    · exact h.lastSaid hstored

theorem concat_stored (h : cache.Tracks capacity past) {resolver : Resolver} {query : Query}
    {answer : query.Answer} (hget : cache.get? query = (none, cache))
    (hsaid : resolver query = .ok answer) :
    (cache.insert query answer).Tracks capacity
      (past ++ [⟨resolver, .resolve query, .ok answer, [query]⟩]) := by
  have hold : forall {kind : SymbolKind} {other : Query} {stored : other.Answer},
      ⟨other, stored⟩ ∈ cache.entries kind ->
      LastSaid (past ++ [⟨resolver, .resolve query, .ok answer, [query]⟩]) other
        (.ok stored) := by
    intro kind other stored hstored
    refine (h.lastSaid hstored).concat fun hasked => ?_
    exact ne_of_mem_entries hget hstored (List.mem_singleton.mp hasked)
  constructor
  · intro kind
    rw [(cache.entries_insert query answer kind).1, h.capacity_eq]
  · intro kind
    rw [(cache.entries_insert query answer kind).2, recent_concat, Exchange.reorder]
    split
    · rw [List.map_take, h.map_inFront, h.capacity_eq, take_moveToFront_take]
    · exact h.queries_eq kind
  · intro kind other stored hstored
    rw [(cache.entries_insert query answer kind).2] at hstored
    split at hstored
    · rcases mem_of_mem_inFront (List.mem_of_mem_take hstored) with hsame | hmem
      · cases hsame
        rw [← hsaid]
        exact lastSaid_of_asked List.mem_cons_self
      · exact hold hmem
    · exact hold hstored

theorem concat_failed (h : cache.Tracks capacity past) {resolver : Resolver} {query : Query}
    {error : ResolveError} (hget : cache.get? query = (none, cache)) :
    cache.Tracks capacity
      (past ++ [⟨resolver, .resolve query, .error error, [query]⟩]) where
  capacity_eq := h.capacity_eq
  queries_eq kind := by
    rw [recent_concat]
    exact h.queries_eq kind
  lastSaid := by
    intro kind other stored hstored
    refine (h.lastSaid hstored).concat fun hasked => ?_
    exact ne_of_mem_entries hget hstored (List.mem_singleton.mp hasked)

theorem concat_cleared (h : cache.Tracks capacity past) {resolver : Resolver} :
    (((cache.clearKind .string).clearKind .member).clearKind .signature).Tracks capacity
      (past ++ [⟨resolver, .clear, (), []⟩]) where
  capacity_eq kind := by
    rw [← h.capacity_eq kind]
    cases kind <;> rfl
  queries_eq kind := by
    rw [recent_concat]
    cases kind <;> exact List.take_nil.symm
  lastSaid {kind} _ _ hstored := by cases kind <;> cases hstored

/-- Whatever a request leads to, the caches keep up with the history. -/
theorem concat (h : cache.Tracks capacity past) {resolver : Resolver} {exchange : Exchange}
    (hserves : cache.Serves resolver exchange next) :
    next.Tracks capacity (past ++ [exchange]) := by
  cases hserves with
  | found hget => exact h.concat_found hget
  | stored hget hsaid => exact h.concat_stored hget hsaid
  | failed hget _ => exact h.concat_failed hget
  | cleared => exact h.concat_cleared

theorem after (h : cache.Tracks capacity past) (requests : List (Resolver × CacheCommand)) :
    (cache.after requests).Tracks capacity (past ++ cache.exchanges requests) := by
  induction requests generalizing cache past with
  | nil =>
      rw [exchanges, List.append_nil]
      exact h
  | cons request rest ih =>
      have hserved := h.concat (cache.serves_serve request.1 request.2)
      rw [exchanges, List.append_cons]
      exact ih hserved

theorem exists_mem_entries_iff_fresh (h : cache.Tracks capacity past) {query : Query} :
    (exists answer : query.Answer, ⟨query, answer⟩ ∈ cache.entries query.kind) <->
      Fresh capacity past query := by
  rw [← mem_take_recent_iff_fresh, ← h.queries_eq, List.mem_map]
  constructor
  · intro hentry
    rcases hentry with ⟨answer, hmem⟩
    exact ⟨⟨query, answer⟩, hmem, rfl⟩
  · intro hentry
    rcases hentry with ⟨⟨_, answer⟩, hmem, rfl⟩
    exact ⟨answer, hmem⟩

end Tracks

/-- A query is answered from the caches exactly when it is still fresh, and then with what was
last said to it. Otherwise it is the one query that goes on to the resolver, whose outcome is
returned. A failure leaves the caches and all that follows as if it had not been asked for. -/
theorem asked_eq_nil_iff_fresh {capacity : Nat} {requests : List (Resolver × CacheCommand)}
    {past later : List Exchange} {resolver : Resolver} {query : Query}
    {outcome : query.Outcome} {asked : List Query}
    (h : (empty capacity).exchanges requests =
      past ++ ⟨resolver, .resolve query, outcome, asked⟩ :: later) :
    (asked = [] <-> Fresh capacity past query) ∧
      (asked = [] -> LastSaid past query outcome) ∧
      (asked ≠ [] -> asked = [query] ∧ outcome = resolver query) ∧
      forall error : ResolveError, outcome = .error error ->
        (empty capacity).after (requests.take (past.length + 1)) =
            (empty capacity).after (requests.take past.length) ∧
          (empty capacity).exchanges (requests.eraseIdx past.length) = past ++ later := by
  rcases exists_request_of_exchanges_eq h with
    ⟨first, rest, request, rfl, hlength, rfl, hserve, rfl⟩
  have htracks := (Tracks.empty capacity).after first
  rw [List.nil_append] at htracks
  have hserves := ((empty capacity).after first).serves_serve request.1 request.2
  rw [hserve] at hserves
  have htake : (first ++ request :: rest).take (first.length + 1) = first ++ [request] := by
    rw [List.append_cons, List.take_left' (by simp)]
  rw [← hlength, htake, List.take_left, List.eraseIdx_append_of_length_le (Nat.le_refl _),
    Nat.sub_self, List.eraseIdx_cons_zero, exchanges_append]
  rw [← htracks.exists_mem_entries_iff_fresh]
  have hmissed : ((empty capacity).after first).get? query =
        (none, (empty capacity).after first) ->
      ([query] = [] <-> exists answer : query.Answer,
        ⟨query, answer⟩ ∈ ((empty capacity).after first).entries query.kind) := by
    intro hget
    constructor
    · intro hnil
      exact absurd hnil (List.cons_ne_nil _ _)
    · intro hentry
      rcases hentry with ⟨answer, hmem⟩
      exact absurd rfl (ne_of_mem_entries hget hmem)
  generalize (empty capacity).after (first ++ [request]) = next at hserves ⊢
  cases hserves with
  | @found _ answer _ hget =>
      have hmem := (entries_of_found hget).1
      refine ⟨⟨fun _ => ⟨answer, hmem⟩, fun _ => rfl⟩, fun _ => htracks.lastSaid hmem,
        fun hne => absurd rfl hne, ?_⟩
      intro error herror
      cases herror
  | stored hget hsaid =>
      refine ⟨hmissed hget, fun hnil => absurd hnil (List.cons_ne_nil _ _),
        fun _ => ⟨rfl, hsaid.symm⟩, ?_⟩
      intro error herror
      cases herror
  | failed hget hsaid =>
      exact ⟨hmissed hget, fun hnil => absurd hnil (List.cons_ne_nil _ _),
        fun _ => ⟨rfl, hsaid.symm⟩, fun _ _ => ⟨rfl, rfl⟩⟩

def saying (text : String) : Resolver
  | .string _ => .ok text
  | .member token _ => .error { token := token, failure := .noSuchMember }
  | .signature token => .error { token := token, failure := .noSuchSignature }

def staleRequests : List (Resolver × CacheCommand) :=
  [ (saying "old", .resolve (.string Sample.labelToken)),
    (saying "new", .resolve (.member Sample.sleepToken none)),
    (saying "new", .resolve (.string Sample.labelToken)),
    (saying "new", .resolve (.string Sample.sleepToken)),
    (saying "new", .resolve (.string Sample.labelToken)) ]

/-- With room for one entry, the failure in between does not make the cache forget what was
said first, and the other string does. -/
theorem asked_eq_nil_iff_fresh_stale :
    (empty 1).exchanges staleRequests =
        (empty 1).exchanges (staleRequests.take 2) ++
          ⟨saying "new", .resolve (.string Sample.labelToken), .ok "old", []⟩ ::
            ((empty 1).exchanges staleRequests).drop 3 ∧
      Fresh 1 ((empty 1).exchanges (staleRequests.take 2)) (.string Sample.labelToken) ∧
      LastSaid ((empty 1).exchanges (staleRequests.take 2)) (.string Sample.labelToken)
        (.ok "old") ∧
      ¬ Fresh 1 ((empty 1).exchanges (staleRequests.take 4)) (.string Sample.labelToken) := by
  have hfound : (empty 1).exchanges staleRequests =
      (empty 1).exchanges (staleRequests.take 2) ++
        ⟨saying "new", .resolve (.string Sample.labelToken), .ok "old", []⟩ ::
          ((empty 1).exchanges staleRequests).drop 3 :=
    rfl
  have hmissed : (empty 1).exchanges staleRequests =
      (empty 1).exchanges (staleRequests.take 4) ++
        ⟨saying "new", .resolve (.string Sample.labelToken), .ok "new",
          [.string Sample.labelToken]⟩ :: [] :=
    rfl
  have hthird := asked_eq_nil_iff_fresh hfound
  have hfifth := asked_eq_nil_iff_fresh hmissed
  refine ⟨hfound, hthird.1.mp rfl, hthird.2.1 rfl, ?_⟩
  intro hfresh
  exact absurd (hfifth.1.mpr hfresh) (List.cons_ne_nil _ _)

end SymbolCache

end CilDisasm
