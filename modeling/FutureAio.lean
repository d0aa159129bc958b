import FutureAio.Lib.Word
import FutureAio.Lib.Window
import FutureAio.Lib.Loop
import FutureAio.Lib.Runs
import FutureAio.Lib.Simulation
import FutureAio.Lib.Capped
import FutureAio.Lib.HostName
import FutureAio.Basic
import FutureAio.ZeroCopy.Linux
import FutureAio.ZeroCopy.Macos
import FutureAio.Fs.Extension
import FutureAio.Fs.File
import FutureAio.Fs.Queued
import FutureAio.Fs.Bounded
import FutureAio.Fs.Guarded
import FutureAio.Fs.Append
import FutureAio.Fs.Send
import FutureAio.Fs.Sinks
import FutureAio.Fs.Mmap
import FutureAio.Fs.Durable
import FutureAio.Doomsday
import FutureAio.Doomsday.Liveness
import FutureAio.Retry
import FutureAio.Retry.Delay
import FutureAio.Retry.Budget
import FutureAio.Timeout
import FutureAio.Retry.Polled
import FutureAio.Retry.Timed
import FutureAio.Write
import FutureAio.Openssl.Wrapper
import FutureAio.Openssl.Stream
import FutureAio.Openssl.Connection
import FutureAio.Openssl.Transparency
import FutureAio.RustTls.Cert
import FutureAio.RustTls.Roots
import FutureAio.RustTls.Connector
import FutureAio.Openssl.Connector
