import Mathlib.Data.List.Basic
import Mathlib.Data.List.Infix
import Mathlib.Data.List.Nodup
import Mathlib.Data.List.Perm.Subperm
import FlowHub.Txn.Proc

namespace FlowHub.DepthFirst

open Txn List Option

variable {κ : Type}

inductive Fault where
  | missing | cycle | tooDeep

section Check

variable (edges : κ → Option (List κ)) (limit : Nat)

/-- A chain of `n` keys, each depending on the next. -/
inductive Chain : κ → Nat → Prop where
  | one (key : κ) : Chain key 1
  | cons {key dep : κ} {deps : List κ} {n : Nat} : edges key = some deps → dep ∈ deps →
      Chain dep n → Chain key (n + 1)

/-- The longest chain from a key. -/
def Depth (key : κ) (n : Nat) : Prop := Chain edges key n ∧ ∀ m, Chain edges key m → m ≤ n

/-- What a key depends on is there. -/
def Closed (key : κ) : Prop := ∀ deps, edges key = some deps → ∀ dep ∈ deps, (edges dep).isSome

/-- Nothing is missing and no chain is longer than the limit; so there is no cycle either. -/
structure Bounded : Prop where
  closed : ∀ key, Closed edges key
  chains : ∀ key n, (edges key).isSome → Chain edges key n → n ≤ limit

variable {edges limit}

variable {keys path : List κ} {key dep : κ} {fuel : Nat}

theorem Depth.lt (h : Depth edges key n)
    (hkey : edges key = some deps) (hdep : dep ∈ deps) (hm : Depth edges dep m) : m < n :=
  h.2 (m + 1) (.cons hkey hdep hm.1)

/-- A longer chain starts at `p` than any at `key`. -/
def Above (edges : κ → Option (List κ)) (p key : κ) : Prop :=
  ∀ n, Chain edges key n → ∃ m, n < m ∧ Chain edges p m

theorem Above.trans (h : Above edges p q) (h' : Above edges q key) : Above edges p key := by
  intro n hn
  obtain ⟨m, hm, hq⟩ := h' n hn
  obtain ⟨m', hm', hp⟩ := h m hq
  exact ⟨m', by omega, hp⟩

theorem Above.of_edge (h : edges key = some deps) (hdep : dep ∈ deps) : Above edges key dep :=
  fun n hn => ⟨n + 1, by omega, .cons h hdep hn⟩

theorem Above.irrefl (hkey : (edges key).isSome) (hbounded : Bounded edges limit) :
    ¬ Above edges key key := by
  intro habove
  have hlong : ∀ n, ∃ m, n < m ∧ Chain edges key m := by
    intro n
    induction n with
    | zero => exact ⟨1, by omega, .one key⟩
    | succ n ih =>
      obtain ⟨m, hm, hchain⟩ := ih
      obtain ⟨m', hm', hchain'⟩ := habove m hchain
      exact ⟨m', by omega, hchain'⟩
  obtain ⟨m, hm, hchain⟩ := hlong limit
  have := hbounded.chains key m hkey hchain
  omega

/-- Where a visit stands: keys in use, each above the one it visits. -/
structure Stands (edges : κ → Option (List κ)) (keys : List κ) (fuel : Nat) (path : List κ)
    (key : κ) : Prop where
  defined : (edges key).isSome
  above : ∀ p ∈ path, Above edges p key
  nodup : path.Nodup
  known : ∀ p ∈ path, p ∈ keys
  fuel : keys.length < fuel + path.length

theorem Stands.next {keys path deps : List κ}
    (h : Stands edges keys (fuel + 1) path key) (hbounded : Bounded edges limit)
    (hkeys : ∀ k, (edges k).isSome → k ∈ keys) (hdeps : edges key = some deps)
    (hdep : dep ∈ deps) : Stands edges keys fuel (key :: path) dep := by
  have hedge : Above edges key dep := .of_edge hdeps hdep
  constructor
  · exact hbounded.closed key deps hdeps dep hdep
  · intro p hp
    rcases mem_cons.mp hp with rfl | hmem
    · exact hedge
    · exact (h.above p hmem).trans hedge
  · rw [nodup_cons]
    exact ⟨fun hmem => (h.above key hmem).irrefl h.defined hbounded, h.nodup⟩
  · intro p hp
    rcases mem_cons.mp hp with rfl | hmem
    · exact hkeys p h.defined
    · exact h.known p hmem
  · have := h.fuel
    rw [length_cons]
    omega

theorem Stands.not_on_path
    (h : Stands edges keys fuel path key) (hbounded : Bounded edges limit) : key ∉ path :=
  fun hmem => (h.above key hmem).irrefl h.defined hbounded

theorem Stands.fuel_pos (h : Stands edges keys 0 path key) : False := by
  have hlength := (subperm_of_subset h.nodup h.known).length_le
  have := h.fuel
  omega

variable [DecidableEq κ] (edges limit)

/-- The loop over what a key depends on, with the deepest seen and the depths known. -/
def checkDeps (visit : κ → List (κ × Nat) → Except Fault (Nat × List (κ × Nat)))
    (path : List κ) : List κ → Nat × List (κ × Nat) → Except Fault (Nat × List (κ × Nat))
  | [], known => .ok known
  | dep :: deps, (deepest, depths) =>
    if (edges dep).isNone then .error .missing
    else if dep ∈ path then .error .cycle
    else do
      let (depth, depths) ← visit dep depths
      checkDeps visit path deps (max deepest depth, depths)

/-- The depth of a key below the keys of `path`, each reached from the one behind it. -/
def check : Nat → List κ → κ → List (κ × Nat) → Except Fault (Nat × List (κ × Nat))
  | 0, _, _, _ => .error .cycle
  | fuel + 1, path, key, depths =>
    match depths.lookup key with
    | some depth => .ok (depth, depths)
    | none => do
      let (deepest, depths) ← checkDeps edges (check fuel (key :: path)) (key :: path)
        ((edges key).getD []) (0, depths)
      if limit < deepest + 1 then .error .tooDeep
      else .ok (deepest + 1, (key, deepest + 1) :: depths)

def checkAll (keys : List κ) : Except Fault (List (κ × Nat)) :=
  keys.foldlM (fun depths key => (check edges limit (keys.length + 1) [] key depths).map Prod.snd) []

variable {edges limit}

/-- What is known of the keys that are done. -/
def Known (edges : κ → Option (List κ)) (limit : Nat) (depths : List (κ × Nat)) : Prop :=
  ∀ key n, depths.lookup key = some n → Depth edges key n ∧ n ≤ limit ∧ Closed edges key

/-- What a visit that returns has found. -/
def Finds (edges : κ → Option (List κ)) (limit : Nat)
    (visit : κ → List (κ × Nat) → Except Fault (Nat × List (κ × Nat))) : Prop :=
  ∀ key depths n depths', (edges key).isSome → Known edges limit depths →
    visit key depths = .ok (n, depths') →
    Depth edges key n ∧ n ≤ limit ∧ Closed edges key ∧ Known edges limit depths'

theorem checkDeps_ok (hvisit : Finds edges limit visit) (hknown : Known edges limit depths)
    (h : checkDeps edges visit path deps (deepest, depths) = .ok (n, depths')) :
    Known edges limit depths' ∧ deepest ≤ n ∧
      (∀ dep ∈ deps, (edges dep).isSome ∧ ∃ m, Depth edges dep m ∧ m ≤ n) ∧
      (n = deepest ∨ ∃ dep ∈ deps, Depth edges dep n) := by
  induction deps generalizing deepest depths with
  | nil =>
    cases h
    exact ⟨hknown, Nat.le_refl _, by simp, .inl rfl⟩
  | cons dep deps ih =>
    unfold checkDeps at h
    cases hdep : edges dep with
    | none => simp [hdep] at h
    | some next =>
      by_cases hpath : dep ∈ path
      · simp [hdep, hpath] at h
      simp only [hdep, isNone_some, Bool.false_eq_true, ite_false, hpath] at h
      obtain ⟨⟨depth, found⟩, hfound, hrest⟩ := bind_eq_ok.mp h
      obtain ⟨hdepth, -, -, hknown'⟩ := hvisit dep depths depth found (by simp [hdep]) hknown
        hfound
      obtain ⟨hlast, hle, hall, hdeepest⟩ := ih hknown' hrest
      refine ⟨hlast, by omega, ?_, ?_⟩
      · intro other hother
        rcases mem_cons.mp hother with rfl | hmem
        · exact ⟨by simp [hdep], depth, hdepth, by omega⟩
        · exact hall other hmem
      · rcases hdeepest with rfl | ⟨other, hmem, hother⟩
        · rcases Nat.le_total depth deepest with hless | hless
          · left
            omega
          · right
            exact ⟨dep, mem_cons_self, by rwa [Nat.max_eq_right hless]⟩
        · exact .inr ⟨other, mem_cons_of_mem _ hmem, hother⟩

theorem check_ok (fuel : Nat) (path : List κ) : Finds edges limit (check edges limit fuel path) := by
  induction fuel generalizing path with
  | zero =>
    intro key depths n depths' _ _ h
    cases h
  | succ fuel ih =>
    intro key depths n depths' hkey hknown h
    obtain ⟨deps, hdeps⟩ := isSome_iff_exists.mp hkey
    unfold check at h
    split at h
    · rename_i depth hlookup
      cases h
      obtain ⟨hdepth, hle, hclosed⟩ := hknown key n hlookup
      exact ⟨hdepth, hle, hclosed, hknown⟩
    · obtain ⟨⟨deepest, found⟩, hfound, hrest⟩ := bind_eq_ok.mp h
      simp only [hdeps, getD_some] at hfound
      obtain ⟨hknown', -, hall, hdeepest⟩ := checkDeps_ok (ih (key :: path)) hknown hfound
      by_cases hlimit : limit < deepest + 1
      · simp [hlimit] at hrest
      simp only [hlimit, ite_false, Except.ok.injEq, Prod.mk.injEq] at hrest
      obtain ⟨rfl, rfl⟩ := hrest
      have hdepth : Depth edges key (deepest + 1) := by
        constructor
        · rcases hdeepest with rfl | ⟨dep, hmem, hdep⟩
          · exact .one key
          · exact .cons hdeps hmem hdep.1
        · intro m hm
          cases hm with
          | one => omega
          | cons hkey' hmem hchain =>
            rw [hdeps] at hkey'
            cases hkey'
            obtain ⟨-, m', hm', hle⟩ := hall _ hmem
            have := hm'.2 _ hchain
            omega
      have hclosed : Closed edges key := by
        intro deps' hdeps' dep hmem
        rw [hdeps] at hdeps'
        cases hdeps'
        exact (hall dep hmem).1
      refine ⟨hdepth, by omega, hclosed, ?_⟩
      intro other m hother
      rw [lookup_cons] at hother
      split at hother
      · rename_i heq
        cases hother
        rw [beq_iff_eq] at heq
        exact heq ▸ ⟨hdepth, by omega, hclosed⟩
      · exact hknown' other m hother

/-- Within the limit nothing is refused. -/
theorem check_returns (hbounded : Bounded edges limit) (hkeys : ∀ k, (edges k).isSome → k ∈ keys)
    (hstands : Stands edges keys fuel path key) (hknown : Known edges limit depths) :
    ∃ n depths', check edges limit fuel path key depths = .ok (n, depths') := by
  induction fuel generalizing path key depths with
  | zero => exact hstands.fuel_pos.elim
  | succ fuel ih =>
    obtain ⟨deps, hdeps⟩ := isSome_iff_exists.mp hstands.defined
    have hloop : ∀ rest, (∀ dep ∈ rest, dep ∈ deps) → ∀ deepest depths, Known edges limit depths →
        ∃ n depths', checkDeps edges (check edges limit fuel (key :: path)) (key :: path) rest
          (deepest, depths) = .ok (n, depths') := by
      intro rest
      induction rest with
      | nil => exact fun _ deepest depths _ => ⟨deepest, depths, rfl⟩
      | cons dep rest ihrest =>
        intro hsub deepest depths hknown
        have hnext := hstands.next hbounded hkeys hdeps (hsub dep mem_cons_self)
        obtain ⟨n, found, hfound⟩ := ih hnext hknown
        have hfinds := check_ok fuel (key :: path) dep depths n found hnext.defined hknown hfound
        obtain ⟨m, last, hlast⟩ := ihrest (fun d hd => hsub d (mem_cons_of_mem _ hd))
          (max deepest n) found hfinds.2.2.2
        refine ⟨m, last, ?_⟩
        have hdefined : (edges dep).isNone = false := by
          rw [isNone_eq_false_iff]
          exact hnext.defined
        unfold checkDeps
        simp only [hdefined, Bool.false_eq_true, ite_false, hnext.not_on_path hbounded]
        exact bind_eq_ok.mpr ⟨(n, found), hfound, hlast⟩
    unfold check
    split
    · exact ⟨_, _, rfl⟩
    obtain ⟨n, found, hfound⟩ := hloop deps (fun _ h => h) 0 depths hknown
    obtain ⟨-, -, hall, hdeepest⟩ := checkDeps_ok (check_ok fuel (key :: path)) hknown hfound
    have hchain : Chain edges key (n + 1) := by
      rcases hdeepest with rfl | ⟨dep, hmem, hdep⟩
      · exact .one key
      · exact .cons hdeps hmem hdep.1
    have hlimit := hbounded.chains key (n + 1) hstands.defined hchain
    refine ⟨n + 1, (key, n + 1) :: found, ?_⟩
    rw [hdeps, getD_some]
    refine bind_eq_ok.mpr ⟨(n, found), hfound, ?_⟩
    simp [Nat.not_lt.mpr hlimit]

theorem checkAll_loop (fuel : Nat)
    (hdefined : ∀ key ∈ keys, (edges key).isSome) (hknown : Known edges limit depths)
    (h : keys.foldlM (fun depths key => (check edges limit fuel [] key depths).map Prod.snd) depths =
      .ok found) : ∀ key ∈ keys, Closed edges key ∧ ∃ n, Depth edges key n ∧ n ≤ limit := by
  induction keys generalizing depths with
  | nil => simp
  | cons key keys ih =>
    rw [foldlM_cons] at h
    obtain ⟨next, hnext, hrest⟩ := bind_eq_ok.mp h
    obtain ⟨⟨n, last⟩, hcheck, rfl⟩ := map_eq_ok.mp hnext
    obtain ⟨hdepth, hle, hclosed, hknown'⟩ := check_ok fuel [] key depths n last
      (hdefined key mem_cons_self) hknown hcheck
    intro other hother
    rcases mem_cons.mp hother with rfl | hmem
    · exact ⟨hclosed, n, hdepth, hle⟩
    · exact ih (fun k hk => hdefined k (mem_cons_of_mem _ hk)) hknown' hrest other hmem

theorem checkAll_returns {all : List κ}
    (hbounded : Bounded edges limit) (hall : ∀ key, (edges key).isSome → key ∈ all)
    (hdefined : ∀ key ∈ keys, (edges key).isSome) (hknown : Known edges limit depths) :
    ∃ found, keys.foldlM (fun depths key =>
      (check edges limit (all.length + 1) [] key depths).map Prod.snd) depths = .ok found := by
  induction keys generalizing depths with
  | nil => exact ⟨depths, rfl⟩
  | cons key keys ih =>
    have hstands : Stands edges all (all.length + 1) [] key :=
      ⟨hdefined key mem_cons_self, by simp, nodup_nil, by simp, by simp⟩
    obtain ⟨n, last, hcheck⟩ := check_returns hbounded hall hstands hknown
    obtain ⟨-, -, -, hknown'⟩ := check_ok (all.length + 1) [] key depths n last
      hstands.defined hknown hcheck
    obtain ⟨found, hfound⟩ := ih (fun k hk => hdefined k (mem_cons_of_mem _ hk)) hknown'
    refine ⟨found, ?_⟩
    rw [foldlM_cons]
    exact bind_eq_ok.mpr ⟨last, map_eq_ok.mpr ⟨(n, last), hcheck, rfl⟩, hfound⟩

/-- The check passes exactly the graphs within the limit. -/
theorem checkAll_iff (hkeys : ∀ key, (edges key).isSome ↔ key ∈ keys) :
    (∃ depths, checkAll edges limit keys = .ok depths) ↔ Bounded edges limit := by
  have hnone : Known edges limit [] := by
    intro key n h
    cases h
  constructor
  · rintro ⟨depths, h⟩
    have hall := checkAll_loop (keys.length + 1) (fun key hmem => (hkeys key).mpr hmem) hnone h
    constructor
    · intro key deps hdeps
      exact (hall key ((hkeys key).mp (by simp [hdeps]))).1 deps hdeps
    · intro key n hdefined hchain
      obtain ⟨-, m, hdepth, hle⟩ := hall key ((hkeys key).mp hdefined)
      exact Nat.le_trans (hdepth.2 n hchain) hle
  · intro hbounded
    exact checkAll_returns hbounded (fun key h => (hkeys key).mp h)
      (fun key hmem => (hkeys key).mpr hmem) hnone

/-- A graph within the limit has a rank that falls along its edges. -/
theorem Bounded.rank {keys : List κ} (h : Bounded edges limit)
    (hkeys : ∀ key, (edges key).isSome ↔ key ∈ keys) :
    ∃ rank : κ → Nat, ∀ key deps, edges key = some deps → ∀ dep ∈ deps, dep ∈ keys ∧ rank dep < rank key := by
  have hnone : Known edges limit [] := by
    intro key n h
    cases h
  obtain ⟨depths, hdepths⟩ := (checkAll_iff hkeys).mpr h
  have hall := checkAll_loop (keys.length + 1) (fun key hmem => (hkeys key).mpr hmem) hnone hdepths
  have hdepth : ∀ key, ∃ n, key ∈ keys → Depth edges key n := by
    intro key
    by_cases hmem : key ∈ keys
    · obtain ⟨-, n, hn, -⟩ := hall key hmem
      exact ⟨n, fun _ => hn⟩
    · exact ⟨0, fun hin => absurd hin hmem⟩
  obtain ⟨rank, hrank⟩ := Classical.axiomOfChoice hdepth
  refine ⟨rank, ?_⟩
  intro key deps hdeps dep hdep
  have hkey : key ∈ keys := (hkeys key).mp (by simp [hdeps])
  have hmem : dep ∈ keys := (hkeys dep).mp (h.closed key deps hdeps dep hdep)
  exact ⟨hmem, (hrank key hkey).lt hdeps hdep (hrank dep hmem)⟩

end Check

section Order

variable {next : κ → List κ}

/-- Keys listed behind what they depend on. -/
def Ordered (next : κ → List κ) (listed : List κ) : Prop :=
  ∀ before key after, listed = before ++ key :: after → ∀ dep ∈ next key, dep ∈ before

/-- A visit below the keys of `path`: these are seen and not listed yet. -/
structure Listing (next : κ → List κ) (keys path : List κ) (state : List κ × List κ) : Prop where
  seen : ∀ key, key ∈ state.1 ↔ key ∈ state.2 ∨ key ∈ path
  apart : ∀ key ∈ path, key ∉ state.2
  nodup : state.2.Nodup
  known : ∀ key ∈ state.2, key ∈ keys
  ordered : Ordered next state.2

/-- Where a visit stands, each key of the path ranked above the one visited. -/
structure Descends (rank : κ → Nat) (keys : List κ) (fuel : Nat) (path : List κ) (key : κ) : Prop where
  mem : key ∈ keys
  ranked : ∀ p ∈ path, rank key < rank p
  nodup : path.Nodup
  known : ∀ p ∈ path, p ∈ keys
  fuel : keys.length < fuel + path.length

theorem Ordered.snoc (h : Ordered next listed)
    (hdeps : ∀ dep ∈ next key, dep ∈ listed) : Ordered next (listed ++ [key]) := by
  intro before other after heq
  rcases eq_nil_or_concat after with rfl | ⟨init, last, rfl⟩
  · obtain ⟨rfl, hlast⟩ := append_inj' heq rfl
    cases hlast
    exact hdeps
  · have hsplit : listed ++ [key] = (before ++ other :: init) ++ [last] := by simp [heq]
    exact h before other init (append_inj' hsplit rfl).1

/-- A visit of a key that lists it, and keeps what was listed. -/
def Lists (next : κ → List κ) (keys path : List κ) (key : κ)
    (visit : List κ × List κ → List κ × List κ) : Prop :=
  ∀ state, Listing next keys path state → Listing next keys path (visit state) ∧
    key ∈ (visit state).2 ∧ ∀ k ∈ state.2, k ∈ (visit state).2

theorem fold_lists {keys path deps : List κ} {visit : κ → List κ × List κ → List κ × List κ}
    {state : List κ × List κ} (hvisit : ∀ dep ∈ deps, Lists next keys path dep (visit dep))
    (hstate : Listing next keys path state) :
    Listing next keys path (deps.foldl (fun state dep => visit dep state) state) ∧
      (∀ dep ∈ deps, dep ∈ (deps.foldl (fun state dep => visit dep state) state).2) ∧
      ∀ k ∈ state.2, k ∈ (deps.foldl (fun state dep => visit dep state) state).2 := by
  induction deps generalizing state with
  | nil => exact ⟨hstate, by simp, fun _ hk => hk⟩
  | cons dep deps ih =>
    obtain ⟨hfirst, hin, hkept⟩ := hvisit dep mem_cons_self state hstate
    obtain ⟨hall, hrest, hmore⟩ := ih (fun d hd => hvisit d (mem_cons_of_mem _ hd)) hfirst
    refine ⟨hall, ?_, fun k hk => hmore k (hkept k hk)⟩
    intro other hother
    rcases mem_cons.mp hother with rfl | hmem
    · exact hmore _ hin
    · exact hrest other hmem

variable [DecidableEq κ] (next)

/-- A visit in post order: the keys seen and those listed. -/
def visit : Nat → κ → List κ × List κ → List κ × List κ
  | 0, _, state => state
  | fuel + 1, key, (seen, listed) =>
    if key ∈ seen then (seen, listed)
    else
      let (seen, listed) := (next key).foldl (fun state dep => visit fuel dep state)
        (key :: seen, listed)
      (seen, listed ++ [key])

def order (keys : List κ) : List κ :=
  (keys.foldl (fun state key => visit next (keys.length + 1) key state) ([], [])).2

variable {next}

theorem visit_lists {rank : κ → Nat} {keys : List κ} (hrank : ∀ key ∈ keys, ∀ dep ∈ next key,
    dep ∈ keys ∧ rank dep < rank key) {fuel : Nat} {path : List κ} {key : κ}
    (hkey : Descends rank keys fuel path key) :
    Lists next keys path key (visit next fuel key) := by
  induction fuel generalizing path key with
  | zero =>
    have hlength := (subperm_of_subset hkey.nodup hkey.known).length_le
    have := hkey.fuel
    omega
  | succ fuel ih =>
    rintro ⟨seen, listed⟩ hstate
    have hpath : key ∉ path := fun hmem => Nat.lt_irrefl _ (hkey.ranked key hmem)
    unfold visit
    split
    · rename_i hseen
      have hlisted := ((hstate.seen key).mp hseen).resolve_right hpath
      exact ⟨hstate, hlisted, fun _ h => h⟩
    · rename_i hseen
      have hnew : key ∉ listed := fun hmem => hseen ((hstate.seen key).mpr (.inl hmem))
      have hstart : Listing next keys (key :: path) (key :: seen, listed) := by
        constructor
        · intro k
          have := hstate.seen k
          simp only [mem_cons] at this ⊢
          tauto
        · intro k hk
          rcases mem_cons.mp hk with rfl | hmem
          · exact hnew
          · exact hstate.apart k hmem
        · exact hstate.nodup
        · exact hstate.known
        · exact hstate.ordered
      have hnext : ∀ dep ∈ next key, Lists next keys (key :: path) dep (visit next fuel dep) := by
        intro dep hmem
        obtain ⟨hdep, hlower⟩ := hrank key hkey.mem dep hmem
        apply ih
        constructor
        · exact hdep
        · intro p hp
          rcases mem_cons.mp hp with rfl | hp
          · exact hlower
          · exact Nat.lt_trans hlower (hkey.ranked p hp)
        · exact nodup_cons.mpr ⟨hpath, hkey.nodup⟩
        · intro p hp
          rcases mem_cons.mp hp with rfl | hp
          · exact hkey.mem
          · exact hkey.known p hp
        · have := hkey.fuel
          rw [length_cons]
          omega
      obtain ⟨hend, hdeps, hkept⟩ := fold_lists hnext hstart
      generalize (next key).foldl (fun state dep => visit next fuel dep state)
        (key :: seen, listed) = last at hend hdeps hkept
      obtain ⟨seen', listed'⟩ := last
      have hown := hend.apart key mem_cons_self
      refine ⟨⟨?_, ?_, ?_, ?_, hend.ordered.snoc hdeps⟩, by simp, ?_⟩
      · intro k
        have := hend.seen k
        simp only [mem_cons, mem_append, not_mem_nil, or_false] at this ⊢
        tauto
      · intro k hk hmem
        rcases mem_append.mp hmem with hold | hlast
        · exact hend.apart k (mem_cons_of_mem _ hk) hold
        · exact hpath (mem_singleton.mp hlast ▸ hk)
      · exact nodup_append.mpr ⟨hend.nodup, nodup_singleton _, by
          intro a ha b hb
          rw [mem_singleton.mp hb]
          rintro rfl
          exact hown ha⟩
      · intro k hk
        rcases mem_append.mp hk with hold | hlast
        · exact hend.known k hold
        · exact mem_singleton.mp hlast ▸ hkey.mem
      · intro k hk
        exact mem_append_left _ (hkept k hk)

/-- Every key is listed once, behind what it depends on. -/
theorem order_spec {rank : κ → Nat} {keys : List κ} (hrank : ∀ key ∈ keys, ∀ dep ∈ next key,
    dep ∈ keys ∧ rank dep < rank key) :
    (order next keys).Nodup ∧ (∀ key, key ∈ order next keys ↔ key ∈ keys) ∧
      Ordered next (order next keys) := by
  have hvisit : ∀ key ∈ keys, Lists next keys [] key (visit next (keys.length + 1) key) :=
    fun key hmem => visit_lists hrank
      ⟨hmem, by simp, nodup_nil, by simp, by simp⟩
  have hstart : Listing next keys [] ([], []) :=
    ⟨by simp, by simp, nodup_nil, by simp, by
      intro before key after heq
      simp at heq⟩
  obtain ⟨hend, hall, -⟩ := fold_lists hvisit hstart
  exact ⟨hend.nodup, fun key => ⟨hend.known key, hall key⟩, hend.ordered⟩

end Order

end FlowHub.DepthFirst
