import Comedi.AsyncBuffer

namespace Comedi.Fc

open AsyncBuffer

/-- The length of a scan in bytes. The channels of a digital subdevice share samples. -/
def cfcBytesPerScan (s : Subdevice) (a : Async) : U32 :=
  let numSamples :=
    match s.type with
    | .di | .do_ | .dio =>
      let bitsPerSample := 8 * bytesPerSample s
      (a.cmd.chanlistLen + bitsPerSample - 1) / bitsPerSample
    | _ => a.cmd.chanlistLen
  numSamples * bytesPerSample s

def incrementScanProgress (s : Subdevice) (a : Async) (numBytes : U32) : Result Async :=
  let scanLength := cfcBytesPerScan s a
  let a := { a with scanProgress := a.scanProgress + numBytes }
  if scanLength ≤ a.scanProgress then do
    let progress ← umod a.scanProgress scanLength
    return { a with scanProgress := progress, events := a.events ||| comediCbEos }
  else .ok a

/-- The end of `cfc_write_array_to_buffer`, for an array that got all the space it needs. -/
def cfcStore (s : Subdevice) (a : Async) (data : List Byte) (numBytes : U32) :
    Result (U32 × Async) := do
  let a ← comediBufMemcpyTo a 0 data numBytes
  let (_, a) ← comediBufWriteFree s a numBytes
  let a ← incrementScanProgress s a numBytes
  return (numBytes, { a with events := a.events ||| comediCbBlock })

def cfcWriteArrayToBuffer (s : Subdevice) (a : Async) (data : List Byte) : Result (U32 × Async) :=
  let numBytes : U32 := .ofNat 32 data.length
  if numBytes = 0 then .ok (0, a)
  else
    let (retval, a) := comediBufWriteAlloc a numBytes
    if retval ≠ numBytes then .ok (0, { a with events := a.events ||| comediCbOverflow })
    else cfcStore s a data numBytes

end Comedi.Fc
