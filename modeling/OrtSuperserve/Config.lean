import Mathlib.Tactic

/-!
# `config.rs`: the server configuration, and the machine it runs on

The settings that the batcher and the clients read, with the defaults of `Default`; the builder methods
set one field each.  `Target` holds what the code's own arithmetic and allocations depend on: the width
of `usize` and the sizes of the two element types whose vectors are allocated by a length taken from
outside.
-/

namespace OrtSuperserve

structure ServerConfig where
  numSessions : ℕ := 1
  maxBatchSize : ℕ := 8
  minBatchSize : ℕ := 1
  /-- In nanoseconds; the timer set to it may fire at any moment. -/
  maxWaitTime : ℕ := 10000000
  preprocessOnInfer : Bool := false
deriving DecidableEq, Repr

namespace ServerConfig

/-- `ServerConfig::new`, the default configuration. -/
def new : ServerConfig := {}

def withNumSessions (config : ServerConfig) (num : ℕ) : ServerConfig :=
  { config with numSessions := num }

def withMaxBatchSize (config : ServerConfig) (size : ℕ) : ServerConfig :=
  { config with maxBatchSize := size }

def withMinBatchSize (config : ServerConfig) (size : ℕ) : ServerConfig :=
  { config with minBatchSize := size }

def withMaxWaitTime (config : ServerConfig) (duration : ℕ) : ServerConfig :=
  { config with maxWaitTime := duration }

def withPreprocessOnInfer (config : ServerConfig) (enabled : Bool) : ServerConfig :=
  { config with preprocessOnInfer := enabled }

/-- The most commands one round can collect: the first one is taken before the size is looked
at. -/
def roundSize (config : ServerConfig) : ℕ := max 1 config.maxBatchSize

lemma one_le_roundSize (config : ServerConfig) : 1 ≤ config.roundSize := le_max_left _ _

end ServerConfig

/-- Widths and sizes of the target: the bits of `usize`, `size_of::<Command<I, O>>()` and
`size_of::<ArrayD<f32>>()`. -/
structure Target where
  bits : ℕ := 64
  commandSize : ℕ := 32
  arraySize : ℕ := 112
deriving DecidableEq, Repr

/-- `size_of::<f32>()`. -/
def f32Size : ℕ := 4

/-- `Vec::with_capacity(len)` panics with "capacity overflow" when the allocation would be larger
than `isize::MAX` bytes. -/
def Target.capacityOverflow (target : Target) (elemSize len : ℕ) : Prop :=
  2 ^ (target.bits - 1) - 1 < len * elemSize

instance (target : Target) (elemSize len : ℕ) : Decidable (target.capacityOverflow elemSize len) :=
  inferInstanceAs (Decidable (_ < _))

end OrtSuperserve
