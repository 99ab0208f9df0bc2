import DataProcessor.Lib.BigEndian

/-!
# The contract ABI of one `bytes` argument

A call with a single dynamic `bytes` argument: the four selector bytes, the
offset of the argument, its length and its content, padded with zeros to
whole words. The decoder reads a call the way a contract does, bounds and
padding included, and gives back what was encoded.
-/

namespace DataProcessor.Lib

/-- Whole words that hold `n` bytes. -/
def words (n : Nat) : Nat := (n + 31) / 32

def word (n : Nat) : List UInt8 := toBE 32 n

@[simp] theorem length_word (n : Nat) : (word n).length = 32 := length_toBE 32 n

/-- A byte string on the boundary of the next word. -/
def padWords (bs : List UInt8) : List UInt8 :=
  bs ++ List.replicate (32 * words bs.length - bs.length) 0

theorem length_padWords (bs : List UInt8) :
    (padWords bs).length = 32 * words bs.length := by
  have : bs.length ≤ 32 * words bs.length := by
    unfold words
    omega
  rw [padWords, List.length_append, List.length_replicate]
  omega

/-- The call data of a function of one `bytes` argument. -/
def abiBytesCall (selector payload : List UInt8) : List UInt8 :=
  selector ++ word 32 ++ word payload.length ++ padWords payload

theorem length_abiBytesCall (selector payload : List UInt8) :
    (abiBytesCall selector payload).length =
      selector.length + 64 + 32 * words payload.length := by
  simp only [abiBytesCall, List.length_append, length_word, length_padWords]

/-- Reads the `bytes` argument of a call: the word after the selector is
where the argument starts, counted from there, and the argument has to be
there in full, padding included. -/
def abiDecodeBytes (data : List UInt8) : Option (List UInt8) :=
  let args := data.drop 4
  if args.length < 32 then none
  else
    let argument := args.drop (ofBE (args.take 32))
    let size := ofBE (argument.take 32)
    if argument.length < 32 + 32 * words size then none
    else some ((argument.drop 32).take size)

theorem abiDecodeBytes_abiBytesCall {selector payload : List UInt8}
    (hsel : selector.length = 4) (hlen : payload.length < 256 ^ 32) :
    abiDecodeBytes (abiBytesCall selector payload) = some payload := by
  have hargs : (abiBytesCall selector payload).drop 4 =
      word 32 ++ (word payload.length ++ padWords payload) := by
    rw [abiBytesCall, List.append_assoc, List.append_assoc, List.drop_left' hsel]
  have hoffset : ofBE (word 32) = 32 := ofBE_toBE (by decide)
  have hsize : ofBE (word payload.length) = payload.length := ofBE_toBE hlen
  have hpad := length_padWords payload
  unfold abiDecodeBytes
  simp only [hargs]
  rw [if_neg (by simp), List.take_left' (length_word 32), hoffset,
    List.drop_left' (length_word 32), List.take_left' (length_word _), hsize,
    if_neg (by simp only [List.length_append, length_word, hpad]; omega),
    List.drop_left' (length_word _), padWords, List.take_left' rfl]

end DataProcessor.Lib
