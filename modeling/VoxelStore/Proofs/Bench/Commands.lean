import VoxelStore.Palette.BiomeGrid
import VoxelStore.Pool
import VoxelStore.Proofs.Requests
/-!
# A bench with objects of all kinds

Arrays, columns, edits, pools, encoders and stored sections lie on the bench under names. A command works on
objects by their names; so does an array that is handed over, which therefore was made on the bench, in the
width of the session, or was given back by an object there. `Command.serve` runs one command and gives its
reply.
-/

namespace VoxelStore

/-- What can lie on a bench. -/
inductive Object where
  | array (a : SectionArray)
  | column (c : Column)
  | edit (e : Edit)
  | pool (p : Pool Edit)
  | encoder (e : Encoder)
  | stored (s : PalettedSection)

namespace Object

def array? : Object → Option SectionArray
  | array a => some a
  | _ => none

def column? : Object → Option Column
  | column c => some c
  | _ => none

def edit? : Object → Option Edit
  | edit e => some e
  | _ => none

def pool? : Object → Option (Pool Edit)
  | pool p => some p
  | _ => none

def encoder? : Object → Option Encoder
  | encoder e => some e
  | _ => none

def stored? : Object → Option PalettedSection
  | stored s => some s
  | _ => none

end Object

/-- Objects by name. -/
def Bench := Nat → Option Object

namespace Bench

def bare : Bench := fun _ => none

variable (b : Bench)

/-- The bench with an object under a name, or with none. -/
def set (name : Nat) (x : Option Object) : Bench := fun n => if n = name then x else b n

def put (name : Nat) (x : Object) : Bench := b.set name (some x)

/-- The bench with the array that was given back, if any was. -/
def keep (name : Nat) : Reply → Bench
  | .array (some a) => b.put name (.array a)
  | _ => b

/-- Goes on with the object of a name, if there is one of the right kind. -/
def use {α : Type} (get : Object → Option α) (name : Nat) (f : α → Run (Reply × Bench)) : Run (Reply × Bench) :=
  match (b name).bind get with
  | some x => f x
  | none => return (.missing, b)

end Bench

/-- The reads of an array. -/
inductive ArrayRead where
  | get (i : Nat)
  | isEmpty
  | uniform
  | values

def ArrayRead.answer (a : SectionArray) : ArrayRead → Except Fault Reply
  | get i => Reply.block <$> a.get i
  | isEmpty => .ok (.flag a.isEmpty)
  | uniform => .ok (.value a.uniform?)
  | values => .ok (.cells (some a.cells))

/-- The ways to hand an array over to a layer. -/
inductive Handing where
  | setBlocks
  | replaceBlocks
  /-- Copies the array into the loaded one. -/
  | copyInto
  /-- Exchanges the loaded array for it. -/
  | assign

namespace Handing

variable (layer : Int) (a : SectionArray)

def columnOp : Handing → Column.Op
  | setBlocks => .setBlocks layer (some a)
  | replaceBlocks => .replaceBlocks layer (some a)
  | copyInto => .write layer [.copyFrom a]
  | assign => .write layer [.assign a]

def editOp : Handing → Edit.Op
  | setBlocks => .setBlocks layer (some a)
  | replaceBlocks => .replaceBlocks layer (some a)
  | copyInto => .write layer [.copyFrom a]
  | assign => .write layer [.assign a]

end Handing

/-- What can be done on a bench. An array that is given back is kept under the name `keep`. -/
inductive Command where
  | newArray (dst : Nat)
  | newFilled (dst : Nat) (v : BlockState)
  | copyArray (dst src : Nat)
  | cloneArray (dst src : Nat)
  | writeArray (dst : Nat) (x : ArrayWrite)
  | copyInto (src dst : Nat)
  | readArray (src : Nat) (r : ArrayRead)
  | compareArrays (x y : Nat)
  | newColumn (dst : Nat) (bottom top : Int) (background : BlockState)
  | copyColumn (dst src : Nat)
  | readColumn (src : Nat) (r : Column.Read) (keep : Nat)
  | changeColumn (dst : Nat) (op : Column.Op) (keep : Nat)
  | handToColumn (dst : Nat) (how : Handing) (layer : Int) (src keep : Nat)
  | newEdit (dst : Nat) (bottom top : Int)
  | copyEdit (dst src : Nat)
  | readEdit (src : Nat) (r : Edit.Read) (keep : Nat)
  | changeEdit (dst : Nat) (op : Edit.Op) (keep : Nat)
  | handToEdit (dst : Nat) (how : Handing) (layer : Int) (src keep : Nat)
  | newPool (dst : Nat) (settings : Settings)
  | poll (src dst : Nat)
  /-- The edit is gone from the bench, whether the pool keeps it or not. -/
  | recycle (dst src : Nat)
  | idle (src : Nat)
  | newEncoder (dst states words : Nat)
  | encode (encoder src : Nat) (g : GlobalPalette) (dst : Nat)
  | encodeMerged (encoder src base : Nat) (g : GlobalPalette) (dst : Nat)
  | encodeColumnLayer (encoder src : Nat) (layer : Int) (g : GlobalPalette) (dst : Nat)
  | encodeEditLayer (encoder src : Nat) (layer : Int) (g : GlobalPalette) (dst : Nat)
  | encodeBiomes (cells : Array (Option Biome)) (defaultBiome : Biome) (g : GlobalPalette) (dst : Nat)
  /-- Brings a stored section of any origin. -/
  | newStored (dst : Nat) (s : PalettedSection)
  | getEntry (src i : Nat) (g : GlobalPalette)
  | decode (src : Nat) (g : GlobalPalette)
  | decodeInto (src dst : Nat) (g : GlobalPalette)
  | compareStored (x y : Nat)

namespace Command

open Object (array? column? edit? pool? encoder? stored?)

/-- Encodes a layer of a column and keeps the section, if there is one. -/
def encodeLayerOf (b : Bench) (encoder : Nat) (c : Column) (layer : Int) (g : GlobalPalette) (dst : Nat) :
    Run (Reply × Bench) :=
  b.use encoder? encoder fun e => do
    let (encoded, e) ← e.encodeLayer c layer g
    let b := b.put encoder (.encoder e)
    return (.encoded encoded, encoded.elim b fun s => b.put dst (.stored s))

/-- Runs a command and gives its reply. Without the objects that it names nothing happens. -/
def serve (b : Bench) : Command → Run (Reply × Bench)
  | newArray dst => do
    return (.done, b.put dst (.array (← SectionArray.create)))
  | newFilled dst v => do
    return (.done, b.put dst (.array (← SectionArray.filled v)))
  | copyArray dst src => b.use array? src fun a => do
    return (.done, b.put dst (.array (← SectionArray.copyOf a)))
  | cloneArray dst src => b.use array? src fun a =>
    return (.done, b.put dst (.array a))
  | writeArray dst x => b.use array? dst fun a => do
    return (.done, b.put dst (.array (← x.run a)))
  | copyInto src dst => b.use array? src fun a => b.use array? dst fun a' => do
    return (.done, b.put dst (.array (← a.copyInto a')))
  | readArray src r => b.use array? src fun a => do
    return (← r.answer a, b)
  | compareArrays x y => b.use array? x fun a => b.use array? y fun a' =>
    return (.flag (decide (a = a')), b)
  | newColumn dst bottom top background => do
    return (.done, b.put dst (.column (← Column.create bottom top background)))
  | copyColumn dst src => b.use column? src fun c => do
    return (.done, b.put dst (.column (← c.copy)))
  | readColumn src r keep => b.use column? src fun c =>
    return (r.answer c, b.keep keep (r.answer c))
  | changeColumn dst op keep => b.use column? dst fun c => do
    let (reply, c) ← op.serve c
    return (reply, (b.put dst (.column c)).keep keep reply)
  | handToColumn dst how layer src keep => b.use array? src fun a => b.use column? dst fun c => do
    let (reply, c) ← (how.columnOp layer a).serve c
    return (reply, (b.put dst (.column c)).keep keep reply)
  | newEdit dst bottom top => do
    return (.done, b.put dst (.edit (← Edit.create bottom top)))
  | copyEdit dst src => b.use edit? src fun e => do
    return (.done, b.put dst (.edit (← e.copy)))
  | readEdit src r keep => b.use edit? src fun e =>
    return (r.answer e, b.keep keep (r.answer e))
  | changeEdit dst op keep => b.use edit? dst fun e => do
    let (reply, e) ← op.serve e
    return (reply, (b.put dst (.edit e)).keep keep reply)
  | handToEdit dst how layer src keep => b.use array? src fun a => b.use edit? dst fun e => do
    let (reply, e) ← (how.editOp layer a).serve e
    return (reply, (b.put dst (.edit e)).keep keep reply)
  | newPool dst settings => do
    return (.done, b.put dst (.pool (← Pool.forEdits settings)))
  | poll src dst => b.use pool? src fun p => do
    let (e, p) ← p.poll
    return (.done, (b.put src (.pool p)).put dst (.edit e))
  | recycle dst src => b.use pool? dst fun p => b.use edit? src fun e => do
    let p ← p.recycle e
    return (.done, (b.set src none).put dst (.pool p))
  | idle src => b.use pool? src fun p =>
    return (.count p.idle.length, b)
  | newEncoder dst states words => do
    return (.done, b.put dst (.encoder (← Encoder.withSizes states words)))
  | encode encoder src g dst => b.use array? src fun a => b.use encoder? encoder fun e => do
    let (encoded, e) ← e.encode a g
    return (.encoded (some encoded), (b.put encoder (.encoder e)).put dst (.stored encoded))
  | encodeMerged encoder src base g dst => b.use array? src fun a => b.use array? base fun a' =>
    b.use encoder? encoder fun e => do
      let (encoded, a, e) ← e.encodeMerged a a' g
      return (.encoded (some encoded),
        ((b.put encoder (.encoder e)).put src (.array a)).put dst (.stored encoded))
  | encodeColumnLayer encoder src layer g dst => b.use column? src fun c =>
    encodeLayerOf b encoder c layer g dst
  | encodeEditLayer encoder src layer g dst => b.use edit? src fun e =>
    encodeLayerOf b encoder e.column layer g dst
  | encodeBiomes cells defaultBiome g dst => do
    let encoded ← BiomeGrid.encode cells defaultBiome g
    return (.encoded (some encoded), b.put dst (.stored encoded))
  | newStored dst s => return (.done, b.put dst (.stored s))
  | getEntry src i g => b.use stored? src fun s => do
    return (.entry (← (s.get g i).run), b)
  | decode src g => b.use stored? src fun s => do
    return (.decoded (← (s.decode g).run), b)
  | decodeInto src dst g => b.use stored? src fun s => b.use array? dst fun a => do
    let (result, a) ← s.decodeInto g a
    return (.outcome result, b.put dst (.array a))
  | compareStored x y => b.use stored? x fun s => b.use stored? y fun s' =>
    return (.flag (decide (s = s')), b)

end Command

end VoxelStore
