/-!
# The example file

A commented settings file that can be loaded as it is.
-/

namespace Tape.Settings

def exampleText : String :=
  "# Market feed configuration

# Bus endpoints: trades and books publish on separate ports
trades_port = 5556
books_port = 5557
enable_bus = true

# Feature windows and published depth (1-10)
window_size = 20
depth_levels = 10

# Book output: full snapshots, or changed levels plus periodic checkpoints
emit_snapshot = true
emit_delta = false
emit_checkpoint = false
checkpoint_every_ms = 1000

[[feeds]]
exchange = \"bybit\"
symbols = [\"BTC-USDT\", \"ETH-USDT\", \"SOL-USDT\"]
snapshots_only = true
snapshot_interval = 1

[[feeds]]
exchange = \"binance\"
symbols = [\"BTC-USDT\", \"ETH-USDT\"]
snapshots_only = true
snapshot_interval = 1
"

end Tape.Settings
