import Mathlib.Logic.Function.Basic
import SpaceBaremetal.World

namespace SpaceBaremetal

-- Every console function below amounts to one `uartWrite`. Proofs about the
-- rest of the world only need the projections that `simps` generates for it.
@[simps] def uartWrite (text : List String) (w : World) : World :=
  { w with uart := w.uart ++ text }

def uartPuts (s : String) (w : World) : World :=
  { w with uart := w.uart ++ [s] }

def uartPutc (c : Char) (w : World) : World :=
  { w with uart := w.uart ++ [String.singleton c] }

-- The locals of `uart_put_dec`. The index is the C `int`, so that running
-- below the buffer would show.
structure DecBuffer where
  value : BitVec 32
  i : Int
  buf : Int → Char

def DecBuffer.init (value : BitVec 32) : DecBuffer where
  value := value
  i := 10
  buf := fun _ => Char.ofNat 0

def DecBuffer.putDigit (d : DecBuffer) : DecBuffer where
  value := d.value / 10
  i := d.i - 1
  buf := Function.update d.buf (d.i - 1) (Char.ofNat (48 + (d.value % 10).toNat))

def DecBuffer.loop : Nat → DecBuffer → DecBuffer
  | 0, d => d
  | fuel + 1, d => if d.value = 0 then d else loop fuel d.putDigit

-- The characters of `buf` from index `i` up to the terminating NUL.
def DecBuffer.chars (buf : Int → Char) : Nat → Int → List Char
  | 0, _ => []
  | fuel + 1, i => if buf i = Char.ofNat 0 then [] else buf i :: chars buf fuel (i + 1)

-- A round divides the value by ten, so 32 rounds are more than any value takes.
def decDigits (value : BitVec 32) : DecBuffer :=
  (DecBuffer.init value).loop 32

def uartPutDec (value : BitVec 32) (w : World) : World :=
  if value = 0 then
    uartPutc '0' w
  else
    uartPuts (String.ofList (DecBuffer.chars (decDigits value).buf 11 (decDigits value).i)) w

def hexChar (nibble : BitVec 32) : Char :=
  "0123456789ABCDEF".toList.getD nibble.toNat (Char.ofNat 0)

def uartPutHex (value : BitVec 32) (w : World) : World :=
  [7, 6, 5, 4, 3, 2, 1, 0].foldl (fun w i => uartPutc (hexChar ((value >>> (i * 4)) &&& 0xF)) w) w

def uartPutHex8 (value : BitVec 8) (w : World) : World :=
  w |> uartPutc (hexChar (((value >>> 4) &&& 0xF).setWidth 32))
    |> uartPutc (hexChar ((value &&& 0xF).setWidth 32))

-- One byte of `uart_hex_dump`, with the new line after every sixteenth.
def uartHexDumpByte (data : Nat → BitVec 8) (i : Nat) (w : World) : World :=
  let w := w |> uartPutHex8 (data i) |> uartPutc ' '
  if (i + 1) % 16 = 0 then uartPuts "\r\n" w else w

def uartHexDump (data : Nat → BitVec 8) (len : Nat) (w : World) : World :=
  (List.range len).foldl (fun w i => uartHexDumpByte data i w) w |> uartPuts "\r\n"

section Text

def decText (value : BitVec 32) : String :=
  if value = 0 then
    String.singleton '0'
  else
    String.ofList (DecBuffer.chars (decDigits value).buf 11 (decDigits value).i)

def hexText (value : BitVec 32) : List String :=
  [7, 6, 5, 4, 3, 2, 1, 0].map fun i => String.singleton (hexChar ((value >>> (i * 4)) &&& 0xF))

def hexDumpByteText (data : Nat → BitVec 8) (i : Nat) : List String :=
  [String.singleton (hexChar (((data i >>> 4) &&& 0xF).setWidth 32)),
    String.singleton (hexChar ((data i &&& 0xF).setWidth 32)), String.singleton ' '] ++
    if (i + 1) % 16 = 0 then ["\r\n"] else []

@[simp] theorem uartPuts_eq (s : String) (w : World) : uartPuts s w = uartWrite [s] w := rfl

@[simp] theorem uartPutc_eq (c : Char) (w : World) :
    uartPutc c w = uartWrite [String.singleton c] w := rfl

@[simp] theorem uartWrite_uartWrite (text more : List String) (w : World) :
    uartWrite more (uartWrite text w) = uartWrite (text ++ more) w := by
  simp [uartWrite]

@[simp] theorem uartPutDec_eq (value : BitVec 32) (w : World) :
    uartPutDec value w = uartWrite [decText value] w := by
  unfold uartPutDec decText
  split <;> simp

@[simp] theorem uartPutHex_eq (value : BitVec 32) (w : World) :
    uartPutHex value w = uartWrite (hexText value) w := by
  simp [uartPutHex, hexText]

theorem uartHexDumpByte_eq (data : Nat → BitVec 8) (i : Nat) (w : World) :
    uartHexDumpByte data i w = uartWrite (hexDumpByteText data i) w := by
  unfold uartHexDumpByte hexDumpByteText
  split <;> simp [uartPutHex8]

theorem foldl_uartHexDumpByte (data : Nat → BitVec 8) (indices : List Nat) (w : World) :
    indices.foldl (fun w i => uartHexDumpByte data i w) w =
      uartWrite (indices.flatMap (hexDumpByteText data)) w := by
  induction indices generalizing w with
  | nil => simp [uartWrite]
  | cons i rest ih =>
      rw [List.foldl_cons, ih, uartHexDumpByte_eq]
      simp

@[simp] theorem uartHexDump_eq (data : Nat → BitVec 8) (len : Nat) (w : World) :
    uartHexDump data len w =
      uartWrite ((List.range len).flatMap (hexDumpByteText data) ++ ["\r\n"]) w := by
  simp [uartHexDump, foldl_uartHexDumpByte]

end Text

end SpaceBaremetal
